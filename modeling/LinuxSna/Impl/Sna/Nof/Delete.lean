import LinuxSna.Impl.Sna.Cosm

/-!
# The deletion of a node

`sna_nof_node_delete` with the destructors of the components. `none` is where memory is read that is not
allocated, as by `sna_cosm_destroy`, which frees a row before it reads where the next one is.
-/

namespace LinuxSna.Nof

open Framework (Heap Link freeAll rowFuel)
open Cs (Netid)

/-- `sna_rm_destroy`, for any node -/
def rmDestroy (l : Lists) : Lists :=
  { l with modeList := [], localLuList := [], remoteLuList := [] }

/-- `sna_sm_destroy` -/
def smDestroy (l : Lists) : Lists := rmDestroy l

/-- `sna_tdm_destroy`, for any node -/
def tdmDestroy (l : Lists) : Lists := { l with nodeList := [] }

/-- `sna_cosm_destroy`, for any node: the rows of each class are freed, and the classes. -/
def cosmDestroy (t : Cosm.Table) : Option Cosm.Table :=
  (t.cosmList.foldlM (fun (h : Heap (Link Cosm.TgCb) × Heap (Link Cosm.NodeCb)) c =>
    (freeAll (rowFuel h.1) c.tg h.1).bind fun tgs =>
    (freeAll (rowFuel h.2) c.node h.2).map fun nodes => (tgs, nodes)) (t.tgs, t.nodes)).map fun h =>
  ⟨[], h.1, h.2⟩

/-- `sna_trs_destroy`; `sna_rss_destroy` does nothing. -/
def trsDestroy (l : Lists) (t : Cosm.Table) : Option (Lists × Cosm.Table) :=
  (cosmDestroy t).map fun t => (tdmDestroy l, t)

/-- `sna_ds_destroy` -/
def dsDestroy (l : Lists) (n : Netid) : Lists :=
  { l with dsClients := l.dsClients.eraseP (sameName · n) }

/-- `sna_ss_destroy` -/
def ssDestroy (l : Lists) (n : Netid) : Lists :=
  { l with ssClients := l.ssClients.eraseP (sameName · n) }

/-- What `sna_nof_node_delete` does with a node that is stopped; `sna_asm_destroy`
does nothing. -/
def destroy (l : Lists) (t : Cosm.Table) (n : Netid) : Option (Lists × Cosm.Table) :=
  (trsDestroy (smDestroy l) t).map fun s =>
  let l := csDestroy s.1 n
  let l := dsDestroy l n
  let l := ssDestroy l n
  ({ l with nofList := l.nofList.eraseP (sameNetid ·.netid n) }, s.2)

/-- `sna_nof_node_delete` -/
def nodeDelete (l : Lists) (t : Cosm.Table) (n : Netid) : Option (Int × Lists × Cosm.Table) :=
  match nofGetByNetid l n with
  | none => some (-enoent, l, t)
  | some nof =>
    let s := if nof.running then nodeStop l n else (0, l)
    if s.1 < 0 then some (s.1, s.2, t) else (destroy s.2 t n).map fun s => (0, s)

end LinuxSna.Nof
