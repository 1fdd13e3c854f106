import LinuxSna.Framework.Table

/-!
# The attach manager

`sna_attach.c`, what `attach_alloc` and its companions do with the files of its instances, and the
part of `snatchd` that listens. A file descriptor is named by the instance it stands for. The name of
a transaction program is a string that fits its buffer.
-/

namespace LinuxSna.Attach

open Framework

/-! ## Registrations -/

def eNoent : Int := -2
def eBadf : Int := -9
def eNomem : Int := -12
def eFault : Int := -14
def eExist : Int := -17
def eNfile : Int := -23
def eRestartsys : Int := -512

/-- `struct attach_tp_info` -/
structure AttachTpInfo where
  index : UInt32
  name : List UInt8

/-- `attach_tp_list` and `attach_tp_system_index`; the instances that have a file, and those whose
file is kept by the reference that `sna_attach_close` does not give back -/
structure Manager where
  tpList : List AttachTpInfo
  systemIndex : UInt32
  files : List Nat
  pinned : List Nat

def Manager.init : Manager := ⟨[], 0, [], []⟩

/-- `sna_attach_tp_get_by_name` -/
def tpGetByName (m : Manager) (name : List UInt8) : Option AttachTpInfo :=
  find AttachTpInfo.name name m.tpList

/-- `sna_attach_tp_get_by_index` -/
def tpGetByIndex (m : Manager) (index : UInt32) : Option AttachTpInfo :=
  find AttachTpInfo.index index m.tpList

/-- `sna_attach_tp_new_index`. One more pass than there are registrations finds a number. -/
def tpNewIndex (m : Manager) : Option UInt32 :=
  newIndex (m.tpList.map AttachTpInfo.index) (m.tpList.length + 1) m.systemIndex

/-- `sna_attach_release`, which does not look at the instance -/
def release (m : Manager) : Manager := { m with tpList := [] }

/-- A call of `sys_attachcall`, or the end of the last reference to the file of an instance -/
inductive Call where
  /-- `attach_alloc` has an inode, `attach_map_fd` a file. -/
  | opened (fd : Nat) (inode file : Bool)
  | close (fd : Nat)
  | register (fd : Nat) (name : List UInt8) (memory : Bool)
  | unregister (fd : Nat) (index : UInt32)
  | fileRelease (fd : Nat)

/-- `sna_attach_open` -/
def attachOpen (m : Manager) (fd : Nat) (inode file : Bool) : Manager × Int :=
  if !inode then (m, eNomem)
  else if !file then (release m, eNfile)
  else ({ m with files := fd :: m.files }, fd)

/-- `sna_attach_close` -/
def attachClose (m : Manager) (fd : Nat) : Manager × Int :=
  if fd ∉ m.files then (m, eBadf)
  else (release { m with pinned := fd :: m.pinned }, 0)

/-- `sna_attach_tp_register`; it does not return if there is no number. -/
def tpRegister (m : Manager) (fd : Nat) (name : List UInt8) (memory : Bool) : Option (Manager × Int) :=
  if fd ∉ m.files then some (m, eBadf)
  else
    match tpGetByName m name with
    | some _ => some (m, eExist)
    | none =>
      if !memory then some (m, eNomem)
      else
        (tpNewIndex m).map fun index =>
          ({ m with tpList := m.tpList ++ [⟨index, name⟩], systemIndex := index }, 0)

/-- `sna_attach_tp_unregister` -/
def tpUnregister (m : Manager) (fd : Nat) (index : UInt32) : Manager × Int :=
  if fd ∉ m.files then (m, eBadf)
  else
    match tpGetByIndex m index with
    | none => (m, eNoent)
    | some _ => ({ m with tpList := m.tpList.eraseP (·.index = index) }, 0)

/-- `attach_close`, when the file of the instance goes -/
def fileRelease (m : Manager) (fd : Nat) : Manager × Int :=
  (release { m with files := m.files.filter (· ≠ fd) }, 0)

/-- The manager after a call, and what the call returns. A new descriptor is not in use, and a file
that is kept does not go. -/
def call (m : Manager) : Call → Option (Manager × Int)
  | .opened fd inode file => if fd ∈ m.files then none else some (attachOpen m fd inode file)
  | .close fd => some (attachClose m fd)
  | .register fd name memory => tpRegister m fd name memory
  | .unregister fd index => some (tpUnregister m fd index)
  | .fileRelease fd =>
    if fd ∈ m.files ∧ fd ∉ m.pinned then some (fileRelease m fd) else none

/-! ## Attaches -/

/-- A buffer in `attach_queue`: the `tcb_id` in its control data and the name in its FMH-5 -/
structure AttachRq where
  tcbId : UInt32
  name : List UInt8
  deriving DecidableEq

/-- `struct tp_attach` where the caller of `attach_listen` has it -/
structure TpAttach where
  tpName : List UInt8
  tcbId : UInt32

/-- The string in `tp_name` -/
def TpAttach.name (t : TpAttach) : List UInt8 := t.tpName.takeWhile (· ≠ 0)

/-- `sna_ktou (tp, sizeof(tp), buf)` of a record that is all zero: four bytes of it -/
def ktouPointerSize (t : TpAttach) : TpAttach := { t with tpName := List.replicate 4 0 ++ t.tpName.drop 4 }

/-- `sizeof(tp)` of a pointer -/
def pointerSize : Int := 4

/-- What happens in a call of `sna_attach_listen`: whether the descriptor is good, whether it sleeps
and a signal is pending afterwards, and whether there is memory and the record can be copied to the
caller. -/
structure ListenEnv where
  file : Bool
  signal : Bool
  memory : Bool
  copy : Bool

/-- `sna_attach_listen`: the queue and the caller's record after it, and what it returns. Without a
buffer in the queue and without a signal it sleeps on. -/
def attachListen (env : ListenEnv) (queue : List AttachRq) (buf : TpAttach) :
    Option (List AttachRq × TpAttach × Int) :=
  if !env.file then some (queue, buf, eBadf)
  else if env.signal then some (queue, buf, eRestartsys)
  else
    match queue with
    | [] => none
    | _ :: queue =>
      if !env.memory then some (queue, buf, eNomem)
      else if !env.copy then some (queue, buf, eFault)
      else some (queue, ktouPointerSize buf, pointerSize)

/-- `struct sna_tp_cb` -/
structure TpCb where
  index : UInt32
  pid : Int
  deriving DecidableEq

/-- `sna_tp_correlate`, with a good descriptor -/
def tpCorrelate (tps : List TpCb) (pid : Int) (tpIndex : UInt32) : List TpCb :=
  update TpCb.index tpIndex (fun tp => { tp with pid := pid }) tps

/-- `snatch_director` after a listen that returned 0 or more: `names` are those of its transaction
programs, and `pid` is what `snatch_fork_tp` returns. -/
def director (names : List (List UInt8)) (pid : Int) (r : TpAttach) (tps : List TpCb) : List TpCb :=
  if r.name ∈ names then if pid < 0 then tps else tpCorrelate tps pid r.tcbId else tps

end LinuxSna.Attach
