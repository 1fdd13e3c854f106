import Mathlib

/-!
# Launching transaction programs

`snatch_fork_tp` of `snatchd.c`: a program that is attached to too often is taken to be failing. Of a
time only the seconds are looked at.
-/

namespace LinuxSna.Snatchd

/-- `CNT_INTVL` -/
def cntIntvl : Int := 60

/-- `local_tp_info`: the limit, and the fields that count the launches -/
structure LocalTpInfo where
  limit : Int
  count : Int
  time : Int
  deriving DecidableEq

/-- What `snatch_fork_tp` returns, whether it forks, and the program after it -/
structure ForkDone where
  pid : Int
  forks : Bool
  tp : LocalTpInfo

/-- `snatch_fork_tp` at a time, with what `fork` returns if it is called -/
def snatchForkTp (tp : LocalTpInfo) (now pid : Int) : ForkDone :=
  if tp.count = 0 then ⟨pid, true, { tp with count := 1, time := now }⟩
  else
    let tp := { tp with count := tp.count + 1 }
    if tp.count ≥ tp.limit then
      if now - tp.time > cntIntvl then ⟨pid, true, { tp with time := now, count := 1 }⟩
      else ⟨-1, false, { tp with count := 0 }⟩
    else ⟨pid, true, tp⟩

/-- An attach that has come, and whether it has been let through -/
structure Launch where
  time : Int
  forked : Bool
  deriving DecidableEq

/-- A program, and the attaches that have come for it, the last one first -/
structure Program where
  tp : LocalTpInfo
  launches : List Launch
  deriving DecidableEq

/-- A program that has just been read from the configuration -/
def Program.new (limit : Int) : Program := ⟨⟨limit, 0, 0⟩, []⟩

/-- `snatch_launch` at a time, with what `fork` returns; the clock does not go back. -/
def Program.launch (p : Program) (attach : Int × Int) : Option Program :=
  if ∀ l ∈ p.launches, l.time ≤ attach.1 then
    let done := snatchForkTp p.tp attach.1 attach.2
    some ⟨done.tp, ⟨attach.1, done.forks⟩ :: p.launches⟩
  else none

end LinuxSna.Snatchd
