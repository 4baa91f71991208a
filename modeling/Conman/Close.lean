/-
`close_obj` (`server-obj.c`) as the C code runs it.

The second loop of `close_obj` reads `while ((reader == list_pop(obj->readers)))`: it
compares where an assignment is meant. The local `reader` keeps whatever the first block
left in it: `obj` when the writer's reader list held `obj`, NULL when it did not, and
nothing at all when `obj` has no writer, where reading it is undefined behaviour. So

* closing an object that has no writer is undefined (`closeObj_no_writer`); both
  recursive calls of `close_obj` are made on an object whose writer is NULL, so they
  are undefined too;
* otherwise the loop pops the first reader and stops: that reader still names `obj` as
  its writer, and the other readers stay in `obj->readers`
  (`closeObj_keeps_first_reader`).

The recursion is bounded by a fuel argument; every call that recurses is undefined
before it recurses again, so a small fuel suffices. What a close keeps is proved once for
any relation closed under the stores of its blocks (`CloseFrame.closeObj`).
-/
import Conman.Object

namespace Conman

/-! ## The three blocks of `close_obj` -/

/-- `if ((obj->writer->writer == NULL) && list_is_empty(obj->writer->readers))
close_obj(obj->writer);`, for the writer `w` as it is after the unlink. -/
def closeIfBare (close : Heap → Nat → Except Fault Heap) (h : Heap) (w : Nat) (wo : Obj) :
    Except Fault Heap :=
  if wo.writer = none ∧ wo.readers = [] then close h w else pure h

/-- The first block of `close_obj(obj)`, "Remove object link between my writer and me".
The iterator stops at the first entry of `W->readers` equal to `obj`, `list_delete`
removes it, and `W` is closed when it is left with neither a writer nor readers.
Returns the heap and the value left in the local `reader`: `none` when no statement
assigned it, `some none` for NULL, `some (some p)` for a pointer `p`. -/
def unlinkWriter (close : Heap → Nat → Except Fault Heap) (h : Heap) (obj : Nat) :
    Except Fault (Heap × Option (Option Nat)) := do
  let o ← h.get obj
  match o.writer with
  | none => pure (h, none)
  | some w =>
    let wo ← h.get w
    if obj ∈ wo.readers then
      let wo := { wo with readers := wo.readers.erase obj }
      let h ← closeIfBare close (h.set w wo) w wo
      let o ← h.get obj
      pure (h.set obj { o with writer := none }, some (some obj))
    else pure (h, some none)

/-- The body of the second block for the popped reader `p`: `if (reader->writer == obj)
{ reader->writer = NULL; if (list_is_empty(reader->readers)) close_obj(reader); }`. -/
def dropReader (close : Heap → Nat → Except Fault Heap) (h : Heap) (obj p : Nat) :
    Except Fault Heap := do
  let ro ← h.get p
  if ro.writer = some obj then
    let h := h.set p { ro with writer := none }
    if ro.readers = [] then close h p else pure h
  else pure h

/-- The second block, `while ((reader == list_pop(obj->readers))) ...`: each round pops
the first reader (`list_pop` answers NULL on an empty list) and goes on only while it
equals the value left in `reader`. -/
def drainLoop (close : Heap → Nat → Except Fault Heap) (obj : Nat)
    (reader : Option (Option Nat)) : Nat → Heap → Except Fault Heap
  | 0, _ => throw .fuel
  | n + 1, h => do
    let o ← h.get obj
    let h := h.set obj { o with readers := o.readers.tail }
    match reader with
    | none => throw .undefined
    | some r =>
      if r = o.readers.head? then
        match r with
        | none => throw .undefined
        | some p =>
          let h ← dropReader close h obj p
          drainLoop close obj reader n h
      else pure h

/-- What the last block makes of `obj`: a buffer still holding data sets `gotEOF` so
that `write_to_obj` flushes it; an empty one releases the descriptor, and a socket is
destroyed. -/
def Obj.closed (o : Obj) : Option Obj :=
  if o.buf.bufIn ≠ o.buf.bufOut then some { o with gotEOF := true }
  else if o.type = .socket then none
  else some { o with gotEOF := false, fd := if 0 ≤ o.fd then -1 else o.fd }

theorem Obj.closed_links {o o' : Obj} (h : o.closed = some o') :
    o'.writer = o.writer ∧ o'.readers = o.readers := by
  unfold Obj.closed at h; split_ifs at h <;> cases h <;> simp

/-- The last block of `close_obj`; `close()` is taken to succeed. -/
def closeFinish (h : Heap) (obj : Nat) : Except Fault Heap := do
  let o ← h.get obj
  if o.buf.bufIn ≠ o.buf.bufOut then pure (h.set obj { o with gotEOF := true })
  else
    let h := h.set obj { o with gotEOF := false, fd := if 0 ≤ o.fd then -1 else o.fd }
    if o.type = .socket then destroyObj h obj else pure h

/-- `close_obj(obj)`, the recursion bounded by `fuel`. -/
def closeObj : Nat → Heap → Nat → Except Fault Heap
  | 0, _, _ => throw .fuel
  | fuel + 1, h, obj => do
    let (h, reader) ← unlinkWriter (closeObj fuel) h obj
    let h ← drainLoop (closeObj fuel) obj reader (fuel + 1) h
    closeFinish h obj

theorem closeObj_succ (fuel : Nat) (h : Heap) (obj : Nat) :
    closeObj (fuel + 1) h obj = (do
      let (h, reader) ← unlinkWriter (closeObj fuel) h obj
      let h ← drainLoop (closeObj fuel) obj reader (fuel + 1) h
      closeFinish h obj) := rfl

/-! ## Spec lemmas of the blocks -/

section
variable {h : Heap} {obj : Nat} {o : Obj}

theorem unlinkWriter_no_writer (close : Heap → Nat → Except Fault Heap)
    (ho : h.objs obj = some o) (hw : o.writer = none) :
    unlinkWriter close h obj = .ok (h, none) := by
  simp [unlinkWriter, Heap.get_of_objs ho, hw]; rfl

/-- The writer `w` held `obj` and keeps another edge: both sides of the link go, and
`reader` is left holding `obj`. -/
theorem unlinkWriter_found (close : Heap → Nat → Except Fault Heap) {w : Nat} {wo : Obj}
    (ho : h.objs obj = some o) (hw : o.writer = some w) (hwo : h.objs w = some wo)
    (hne : w ≠ obj) (hmem : obj ∈ wo.readers)
    (hkeep : wo.writer ≠ none ∨ wo.readers.erase obj ≠ []) :
    unlinkWriter close h obj =
      .ok ((h.set w { wo with readers := wo.readers.erase obj }).set obj { o with writer := none },
        some (some obj)) := by
  have hkeep' : ¬(wo.writer = none ∧ wo.readers.erase obj = []) := by tauto
  simp only [unlinkWriter, Heap.get_of_objs ho, hw, Heap.get_of_objs hwo, if_pos hmem, closeIfBare,
    if_neg hkeep', pure_bind,
    Heap.get_of_objs (h.objs_set_ne _ (Ne.symm hne) ▸ ho : (h.set w _).objs obj = some o)]
  rfl

/-- Reading the unassigned `reader` is undefined. -/
theorem drainLoop_unset (close : Heap → Nat → Except Fault Heap) (n : Nat) (h : Heap) :
    drainLoop close obj none (n + 1) h = .error .undefined := by
  simp only [drainLoop]
  cases hp : h.objs obj
  · simp [Heap.get_of_objs_none hp]; rfl
  · simp [Heap.get_of_objs hp]; rfl

/-- The popped reader differs from `reader`: the loop stops after one pop. -/
theorem drainLoop_stop (close : Heap → Nat → Except Fault Heap) (n : Nat) {r : Option Nat}
    (ho : h.objs obj = some o) (hr : r ≠ o.readers.head?) :
    drainLoop close obj (some r) (n + 1) h = .ok (h.set obj { o with readers := o.readers.tail }) := by
  simp only [drainLoop, Heap.get_of_objs ho, if_neg hr, pure_bind]; rfl

/-- The last block changes `obj` alone, into `o.closed`. -/
theorem closeFinish_eq (ho : h.objs obj = some o) :
    ∃ h', closeFinish h obj = .ok h' ∧ h'.fresh = h.fresh ∧
      ∀ q, h'.objs q = if q = obj then o.closed else h.objs q := by
  unfold closeFinish Obj.closed
  simp only [Heap.get_of_objs ho, pure_bind]
  by_cases hbuf : o.buf.bufIn ≠ o.buf.bufOut
  · exact ⟨h.set obj _, by rw [if_pos hbuf]; rfl, rfl, fun q => by simp [hbuf]⟩
  · by_cases hs : o.type = .socket
    · refine ⟨(h.set obj { o with gotEOF := false, fd := if 0 ≤ o.fd then -1 else o.fd }).free obj,
        ?_, rfl, fun q => by by_cases hq : q = obj <;> simp [hbuf, hs, hq]⟩
      rw [if_neg hbuf, if_pos hs, destroyObj_eq (Heap.objs_set_self _ _ _)]
      simp [Obj.destroyFault, not_not.mp hbuf, ObjAux.free_of_socket hs]
    · exact ⟨h.set obj _, by rw [if_neg hbuf, if_neg hs]; rfl, rfl, fun q => by simp [hbuf, hs]⟩

end

/-! ## What `close_obj` does -/

/-- **A close of an object with no writer is undefined**: the drain loop reads `reader`,
which no statement assigned. -/
theorem closeObj_no_writer (fuel : Nat) {h : Heap} {obj : Nat} {o : Obj}
    (ho : h.objs obj = some o) (hw : o.writer = none) :
    closeObj (fuel + 1) h obj = .error .undefined := by
  rw [closeObj_succ, unlinkWriter_no_writer _ ho hw]
  simp only [bind, Except.bind, drainLoop_unset]

/-- The spec lemma of `close_obj` on an object whose writer `w` keeps another edge and
whose first reader is not itself: `obj` leaves `w`'s readers, loses its writer and its
first reader, and the last block closes it. -/
theorem closeObj_eq_of_writer_keeps (fuel : Nat) {h : Heap} {obj w : Nat} {o wo : Obj}
    (ho : h.objs obj = some o) (hw : o.writer = some w) (hwo : h.objs w = some wo)
    (hne : w ≠ obj) (hmem : obj ∈ wo.readers) (hkeep : wo.writer ≠ none ∨ wo.readers.erase obj ≠ [])
    (hfirst : o.readers.head? ≠ some obj) :
    closeObj (fuel + 1) h obj =
      closeFinish (((h.set w { wo with readers := wo.readers.erase obj }).set obj
        { o with writer := none, readers := o.readers.tail })) obj := by
  have hstop := drainLoop_stop (closeObj fuel) fuel
    (Heap.objs_set_self (h.set w { wo with readers := wo.readers.erase obj }) obj
      { o with writer := none }) (show some obj ≠ o.readers.head? from Ne.symm hfirst)
  rw [closeObj_succ, unlinkWriter_found _ ho hw hwo hne hmem hkeep]
  simp only [bind, Except.bind, hstop, Heap.set_set]

/-- **`close_obj` leaves its first reader pointing at it.** When `obj`'s writer keeps
another edge, the drain loop pops the first reader `r` without clearing `r->writer`
and stops: `r` still names `obj` as its writer, and the remaining readers stay in
`obj->readers` (when `obj` is not destroyed). -/
theorem closeObj_keeps_first_reader (fuel : Nat) {h : Heap} {obj w r : Nat} {o wo ro : Obj}
    {rs : List Nat} (ho : h.objs obj = some o) (hw : o.writer = some w) (hwo : h.objs w = some wo)
    (hne : w ≠ obj) (hmem : obj ∈ wo.readers) (hkeep : wo.writer ≠ none ∨ wo.readers.erase obj ≠ [])
    (hr : o.readers = r :: rs) (hrne : r ≠ obj) (hro : h.objs r = some ro)
    (hrw : ro.writer = some obj) :
    ∃ h', closeObj (fuel + 1) h obj = .ok h' ∧
      (∃ r', h'.objs r = some r' ∧ r'.writer = some obj) ∧
      ∀ o', h'.objs obj = some o' → o'.writer = none ∧ o'.readers = rs := by
  obtain ⟨h', hfin, -, hobjs⟩ := closeFinish_eq (Heap.objs_set_self
    (h.set w { wo with readers := wo.readers.erase obj }) obj
    { o with writer := none, readers := o.readers.tail })
  refine ⟨h', ?_, ?_, fun o' ho' => ?_⟩
  · rw [closeObj_eq_of_writer_keeps fuel ho hw hwo hne hmem hkeep (by simp [hr, hrne]), hfin]
  · -- `r` is untouched but for the erased entry, should `r` be the writer itself
    rw [hobjs, if_neg hrne, Heap.objs_set_ne _ _ hrne]
    by_cases hrw' : r = w
    · subst hrw'; rw [hwo] at hro; cases hro; exact ⟨_, Heap.objs_set_self _ _ _, hrw⟩
    · exact ⟨ro, by rw [Heap.objs_set_ne _ _ hrw', hro], hrw⟩
  · rw [hobjs, if_pos rfl] at ho'
    simpa [hr] using Obj.closed_links ho'

/-- A console (0) with a client (1) attached read-write: each writes to the other. -/
def readWriteHeap : Heap :=
  ((Heap.empty.alloc { createObj "c" (.console "/dev/ttyS0" .uninitialized .uninitialized 9600) with
      writer := some 1, readers := [1] }).1.alloc
    { createObj "u@h" (.socket false 0) with fd := 4, writer := some 0, readers := [0] }).1

theorem close_readWrite_console_keeps_client :
    ∃ h', closeObj (0 + 1) readWriteHeap 0 = .ok h' ∧
      (∃ r', h'.objs 1 = some r' ∧ r'.writer = some 0) ∧
      ∀ o', h'.objs 0 = some o' → o'.writer = none ∧ o'.readers = [] :=
  closeObj_keeps_first_reader 0 rfl rfl rfl (by decide) (by decide) (.inl (by decide)) rfl
    (by decide) rfl rfl

/-! ## What `close_obj` keeps -/

/-- Every object alive in `h'` was alive in `h` with the same name, kind and buffer:
`close_obj` changes only links, `gotEOF` and descriptors, and frees objects. -/
def Heap.Keeps (h h' : Heap) : Prop :=
  ∀ p o', h'.objs p = some o' → ∃ o, h.objs p = some o ∧ o'.name = o.name ∧ o'.buf = o.buf ∧
    o'.aux = o.aux

namespace Heap.Keeps

theorem refl (h : Heap) : h.Keeps h := fun _ o ho => ⟨o, ho, rfl, rfl, rfl⟩

theorem trans {h1 h2 h3 : Heap} (h12 : h1.Keeps h2) (h23 : h2.Keeps h3) : h1.Keeps h3 := by
  intro p o3 ho3
  obtain ⟨o2, ho2, e1, e2, e3⟩ := h23 p o3 ho3
  obtain ⟨o1, ho1, f1, f2, f3⟩ := h12 p o2 ho2
  exact ⟨o1, ho1, e1.trans f1, e2.trans f2, e3.trans f3⟩

theorem set {h : Heap} {p : Nat} {o : Obj} (o' : Obj) (hp : h.objs p = some o) (hn : o'.name = o.name)
    (hb : o'.buf = o.buf) (ha : o'.aux = o.aux) : h.Keeps (h.set p o') := by
  intro q o'' hq
  rw [Heap.objs_set] at hq
  split at hq
  · cases hq; subst_vars; exact ⟨o, hp, hn, hb, ha⟩
  · exact ⟨o'', hq, rfl, rfl, rfl⟩

theorem free (h : Heap) (p : Nat) : h.Keeps (h.free p) := by
  intro q o hq
  rw [Heap.objs_free] at hq
  split at hq
  · cases hq
  · exact ⟨o, hq, rfl, rfl, rfl⟩

theorem allBounded {N : Nat} {h h' : Heap} (hk : h.Keeps h') (hb : h.AllBounded N) :
    h'.AllBounded N := by
  intro p o' hp
  obtain ⟨o, ho, -, hbuf, -⟩ := hk p o' hp
  exact hbuf ▸ hb p o ho

end Heap.Keeps

/-! ## Relations `close_obj` keeps -/

/-- A relation between heaps that holds across `close_obj`, given that it holds across its
steps: it is reflexive and transitive, holds across a store that keeps the object's name,
buffer and kind (the only stores of the first two blocks), and across the last block. -/
structure CloseFrame (R : Heap → Heap → Prop) : Prop where
  refl : ∀ h, R h h
  trans : ∀ {h1 h2 h3 : Heap}, R h1 h2 → R h2 h3 → R h1 h3
  set : ∀ {h : Heap} {p : Nat} {o : Obj} (o' : Obj), h.objs p = some o → o'.name = o.name →
    o'.buf = o.buf → o'.aux = o.aux → R h (h.set p o')
  finish : ∀ {h h' : Heap} {obj : Nat}, closeFinish h obj = .ok h' → R h h'

section
variable {R : Heap → Heap → Prop} (hR : CloseFrame R) {close : Heap → Nat → Except Fault Heap}
  (hclose : ∀ h h' p, close h p = .ok h' → R h h')
include hR hclose

theorem unlinkWriter_rel {h h' : Heap} {obj : Nat} {reader : Option (Option Nat)}
    (hok : unlinkWriter close h obj = .ok (h', reader)) : R h h' := by
  simp only [unlinkWriter, bind_eq_ok] at hok
  obtain ⟨o, ho, hok⟩ := hok
  split at hok
  · cases hok; exact hR.refl h
  · simp only [bind_eq_ok] at hok
    obtain ⟨wo, hwo, hok⟩ := hok
    split at hok
    · simp only [bind_eq_ok] at hok
      obtain ⟨h2, h2ok, o2, ho2, hok⟩ := hok
      cases hok
      have k1 := hR.set { wo with readers := wo.readers.erase obj } (Heap.get_eq_ok.mp hwo)
        rfl rfl rfl
      have k2 := hR.set { o2 with writer := none } (Heap.get_eq_ok.mp ho2) rfl rfl rfl
      unfold closeIfBare at h2ok
      split at h2ok
      · exact hR.trans (hR.trans k1 (hclose _ _ _ h2ok)) k2
      · cases h2ok; exact hR.trans k1 k2
    · cases hok; exact hR.refl h

theorem dropReader_rel {h h' : Heap} {obj p : Nat} (hok : dropReader close h obj p = .ok h') :
    R h h' := by
  simp only [dropReader, bind_eq_ok] at hok
  obtain ⟨ro, hro, hok⟩ := hok
  have k := hR.set { ro with writer := none } (Heap.get_eq_ok.mp hro) rfl rfl rfl
  split at hok
  · split at hok
    · exact hR.trans k (hclose _ _ _ hok)
    · cases hok; exact k
  · cases hok; exact hR.refl h

theorem drainLoop_rel {obj : Nat} {reader : Option (Option Nat)} :
    ∀ {n : Nat} {h h' : Heap}, drainLoop close obj reader n h = .ok h' → R h h'
  | 0, h, h', hok => by cases hok
  | n + 1, h, h', hok => by
    simp only [drainLoop, bind_eq_ok] at hok
    obtain ⟨o, ho, hok⟩ := hok
    have k1 := hR.set { o with readers := o.readers.tail } (Heap.get_eq_ok.mp ho) rfl rfl rfl
    split at hok
    · cases hok
    · split at hok
      · split at hok
        · cases hok
        · simp only [bind_eq_ok] at hok
          obtain ⟨h2, h2ok, hok⟩ := hok
          exact hR.trans (hR.trans k1 (dropReader_rel hR hclose h2ok)) (drainLoop_rel hok)
      · cases hok; exact k1

end

/-- A relation that holds across the steps of `close_obj` holds across it. -/
theorem CloseFrame.closeObj {R : Heap → Heap → Prop} (hR : CloseFrame R) :
    ∀ {fuel : Nat} {h h' : Heap} {obj : Nat}, Conman.closeObj fuel h obj = .ok h' → R h h'
  | 0, _, _, _, hok => by cases hok
  | fuel + 1, h, h', obj, hok => by
    rw [closeObj_succ] at hok
    simp only [bind_eq_ok] at hok
    obtain ⟨⟨h1, reader⟩, h1ok, h2, h2ok, hok⟩ := hok
    have ih : ∀ h h' p, Conman.closeObj fuel h p = .ok h' → R h h' := fun _ _ _ => hR.closeObj
    exact hR.trans (hR.trans (unlinkWriter_rel hR ih h1ok) (drainLoop_rel hR ih h2ok)) (hR.finish hok)

theorem closeFinish_keeps {h h' : Heap} {obj : Nat} (hok : closeFinish h obj = .ok h') :
    h.Keeps h' := by
  unfold closeFinish at hok
  simp only [bind_eq_ok] at hok
  obtain ⟨o, ho, hok⟩ := hok
  obtain ⟨h'', hfin, -, hobjs⟩ := closeFinish_eq (Heap.get_eq_ok.mp ho)
  have : h'' = h' := by
    rw [closeFinish, ho] at hfin
    exact Except.ok.inj (hfin.symm.trans hok)
  subst this
  intro p o' hp
  rw [hobjs] at hp
  split at hp
  · subst_vars
    refine ⟨o, Heap.get_eq_ok.mp ho, ?_⟩
    unfold Obj.closed at hp; split_ifs at hp <;> cases hp <;> exact ⟨rfl, rfl, rfl⟩
  · exact ⟨o', hp, rfl, rfl, rfl⟩

/-- `close_obj` changes only links, `gotEOF` and descriptors, and frees objects. -/
theorem closeObj_keeps {fuel : Nat} {h h' : Heap} {obj : Nat} (hok : closeObj fuel h obj = .ok h') :
    h.Keeps h' :=
  CloseFrame.closeObj ⟨Heap.Keeps.refl, Heap.Keeps.trans, Heap.Keeps.set, closeFinish_keeps⟩ hok

end Conman
