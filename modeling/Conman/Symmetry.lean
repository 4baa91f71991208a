/-
Where the links stay symmetric. Creating objects, linking onto an object nobody writes
to, reading bytes and writing them out all keep `Heap.Symmetric`: in every state reached
by such calls, with no `close_obj` on the way, the links are symmetric
(`Reachable.symmetric_of_closeFree`). Together with `close_breaks_link_symmetry` this puts
the asymmetry in `close_obj` alone.

The invariant carried along is `Heap.Intact`: symmetric links, every live object below
the address `malloc` hands out next, and no object at EOF. The calls that close nothing
change no object's links or `gotEOF` (`Heap.Tame`), except `create_obj_link`'s own
`link_objs` (`Intact.linkObjs`) and the allocations (`Intact.alloc`).
-/
import Conman.Engine

namespace Conman

namespace Heap

/-- Every live object sits below the next fresh address. -/
def BelowFresh (h : Heap) : Prop := ∀ p o, h.objs p = some o → p < h.fresh

/-- No object is at EOF. -/
def NoEOF (h : Heap) : Prop := ∀ p o, h.objs p = some o → o.gotEOF = false

/-- The invariant of the calls that close nothing. -/
structure Intact (h : Heap) : Prop where
  symmetric : h.Symmetric
  belowFresh : h.BelowFresh
  noEOF : h.NoEOF

theorem intact_empty : Heap.empty.Intact where
  symmetric := ⟨fun _ _ _ _ h => (nomatch h), fun _ _ h => (nomatch h)⟩
  belowFresh _ _ h := nomatch h
  noEOF _ _ h := nomatch h

/-- A live object's pointers name live objects, below the fresh address. -/
theorem Intact.writer_lt {h : Heap} (hi : h.Intact) {a w : Nat} {oa : Obj}
    (ha : h.objs a = some oa) (hw : oa.writer = some w) : w < h.fresh := by
  obtain ⟨ow, how⟩ := Option.ne_none_iff_exists'.mp ((hi.symmetric.2 a oa ha).1 w hw)
  exact hi.belowFresh w ow how

theorem Intact.reader_lt {h : Heap} (hi : h.Intact) {a r : Nat} {oa : Obj}
    (ha : h.objs a = some oa) (hr : r ∈ oa.readers) : r < h.fresh := by
  obtain ⟨or, hor⟩ := Option.ne_none_iff_exists'.mp ((hi.symmetric.2 a oa ha).2 r hr)
  exact hi.belowFresh r or hor

/-- An object that is written by nobody is among nobody's readers. -/
theorem Intact.not_mem_readers {h : Heap} (hi : h.Intact) {a b : Nat} {oa ob : Obj}
    (ha : h.objs a = some oa) (hw : oa.writer = none) (hb : h.objs b = some ob) :
    a ∉ ob.readers := fun hm => by
  have := ((hi.symmetric.1 a b oa ob ha hb).1.mpr hm); rw [hw] at this; cases this

theorem BelowFresh.alloc_objs {h : Heap} (hb : h.BelowFresh) (o : Obj) {q : Nat} {oq : Obj}
    (hq : h.objs q = some oq) : (h.alloc o).1.objs q = some oq := by
  show (if q = h.fresh then some o else h.objs q) = some oq
  rw [if_neg (Nat.ne_of_lt (hb q oq hq)), hq]

/-- An allocation keeps every object below the fresh address. -/
theorem BelowFresh.alloc {h : Heap} (hb : h.BelowFresh) (o : Obj) : (h.alloc o).1.BelowFresh := by
  intro q oq hq
  change (if q = h.fresh then some o else h.objs q) = some oq at hq
  show q < h.fresh + 1
  split_ifs at hq with hqf
  · omega
  · exact Nat.lt_succ_of_lt (hb q oq hq)

/-- Allocating an object with no links and not at EOF keeps the invariant. -/
theorem Intact.alloc {h : Heap} (hi : h.Intact) {o : Obj} (hw : o.writer = none)
    (hr : o.readers = []) (he : o.gotEOF = false) : (h.alloc o).1.Intact := by
  have hobjs : ∀ q, (h.alloc o).1.objs q = if q = h.fresh then some o else h.objs q :=
    fun _ => rfl
  have hlive : ∀ q, q < h.fresh → (h.alloc o).1.objs q = h.objs q := fun q hq => by
    rw [hobjs, if_neg (Nat.ne_of_lt hq)]
  refine ⟨⟨fun a b oa ob ha hb => ?_, fun a oa ha => ?_⟩, fun q oq hq => ?_, fun q oq hq => ?_⟩
  · rw [hobjs] at ha hb
    split_ifs at ha hb with h1 h2 h2
    · -- both the new object
      cases ha; cases hb; simp [hw, hr]
    · -- the new object and an old one: neither names the other
      cases ha
      have hm : a ∉ ob.readers := fun hm => absurd (hi.reader_lt hb hm) (by omega)
      simp only [hw, reduceCtorEq, false_iff]
      exact ⟨hm, by rw [List.count_eq_zero_of_not_mem hm]; exact Nat.zero_le 1⟩
    · cases hb
      rw [hr]
      exact ⟨⟨fun hw' => absurd (hi.writer_lt ha hw') (by omega), fun hm => nomatch hm⟩,
        Nat.zero_le 1⟩
    · exact hi.symmetric.1 a b oa ob ha hb
  · rw [hobjs] at ha
    split_ifs at ha with h1
    · cases ha; simp [hw, hr]
    · refine ⟨fun w hw' => ?_, fun r hm => ?_⟩
      · rw [hlive w (hi.writer_lt ha hw')]; exact (hi.symmetric.2 a oa ha).1 w hw'
      · rw [hlive r (hi.reader_lt ha hm)]; exact (hi.symmetric.2 a oa ha).2 r hm
  · exact hi.belowFresh.alloc o q oq hq
  · rw [hobjs] at hq
    split_ifs at hq
    · cases hq; exact he
    · exact hi.noEOF q oq hq

/-- `link_objs(src, dst)` onto an object nobody writes to keeps the invariant. -/
theorem Intact.linkObjs {h : Heap} (hi : h.Intact) {src dst : Nat} {so d : Obj}
    (hsd : src ≠ dst) (hso : h.objs src = some so) (hd : h.objs dst = some d)
    (hdw : d.writer = none) :
    ((h.set dst { d with writer := some src }).set src
      { so with readers := so.readers ++ [dst] }).Intact := by
  have hfree : ∀ b ob, h.objs b = some ob → dst ∉ ob.readers := fun b ob hb =>
    hi.not_mem_readers hd hdw hb
  have hlive : ∀ q, ((h.set dst { d with writer := some src }).set src
      { so with readers := so.readers ++ [dst] }).objs q ≠ none ↔ h.objs q ≠ none := by
    intro q; simp only [objs_set]; split_ifs <;> simp_all
  have hold := hi.symmetric.1
  refine ⟨⟨fun a b oa ob ha hb => ?_, fun a oa ha => ?_⟩, fun q oq hq => ?_, fun q oq hq => ?_⟩
  · simp only [objs_set] at ha hb
    split_ifs at ha hb with h1 h2 h3 h4 h3 h4 h3 h4 <;> (try cases ha) <;> (try cases hb) <;>
      (try subst a) <;> (try subst b)
    · simpa [List.count_append, hsd] using hold src src so so hso hso
    · exact hold src dst so d hso hd
    · exact hold src b so ob hso hb
    · simp [List.count_append, List.count_eq_zero_of_not_mem (hfree src so hso)]
    · simp [hsd, hfree dst d hd, List.count_eq_zero_of_not_mem (hfree dst d hd)]
    · have hb1 : b ≠ src := by assumption
      simp [Ne.symm hb1, hfree b ob hb, List.count_eq_zero_of_not_mem (hfree b ob hb)]
    · have ha1 : a ≠ dst := by assumption
      simpa [List.count_append, ha1] using hold a src oa so ha hso
    · exact hold a dst oa d ha hd
    · exact hold a b oa ob ha hb
  · simp only [objs_set] at ha
    have hptr := fun a oa ha => hi.symmetric.2 a oa ha
    split_ifs at ha with h1 h2 <;> (try cases ha) <;> (try subst a)
    · refine ⟨fun w hw => (hlive w).mpr ((hptr src so hso).1 w hw), fun r hr => ?_⟩
      rcases List.mem_append.mp hr with hr | hr
      · exact (hlive r).mpr ((hptr src so hso).2 r hr)
      · rw [List.mem_singleton.mp hr, hlive]; simp [hd]
    · refine ⟨fun w hw => ?_, fun r hr => (hlive r).mpr ((hptr dst d hd).2 r hr)⟩
      cases hw; rw [hlive]; simp [hso]
    · exact ⟨fun w hw => (hlive w).mpr ((hptr a oa ha).1 w hw),
        fun r hr => (hlive r).mpr ((hptr a oa ha).2 r hr)⟩
  · obtain ⟨o, ho⟩ := Option.ne_none_iff_exists'.mp
      ((hlive q).mp (by rw [hq]; exact Option.some_ne_none _))
    exact hi.belowFresh q o ho
  · simp only [objs_set] at hq
    split_ifs at hq <;> (try cases hq) <;> (try subst q)
    · exact hi.noEOF src so hso
    · exact hi.noEOF dst d hd
    · exact hi.noEOF q oq hq

end Heap

/-! ## Calls that change no link -/

/-- What the calls that close nothing change of no object: its links and its EOF flag. -/
def Obj.shape (o : Obj) : Option Nat × List Nat × Bool := (o.writer, o.readers, o.gotEOF)

/-- `h'` has the objects of `h` at the same addresses, with the same shapes. -/
def Heap.Tame (h h' : Heap) : Prop :=
  h'.fresh = h.fresh ∧ ∀ p, (h'.objs p).map Obj.shape = (h.objs p).map Obj.shape

namespace Heap.Tame

theorem refl (h : Heap) : h.Tame h := ⟨rfl, fun _ => rfl⟩

theorem trans {h1 h2 h3 : Heap} (h12 : h1.Tame h2) (h23 : h2.Tame h3) : h1.Tame h3 :=
  ⟨h23.1.trans h12.1, fun p => (h23.2 p).trans (h12.2 p)⟩

theorem set {h : Heap} {p : Nat} {o : Obj} (o' : Obj) (hp : h.objs p = some o)
    (hs : o'.shape = o.shape) : h.Tame (h.set p o') := by
  refine ⟨rfl, fun q => ?_⟩
  rw [Heap.objs_set]; split_ifs with hq
  · subst hq; rw [hp]; exact congrArg some hs
  · rfl

theorem obj {h h' : Heap} (ht : h.Tame h') {a : Nat} {oa' : Obj} (ha : h'.objs a = some oa') :
    ∃ oa, h.objs a = some oa ∧ oa'.writer = oa.writer ∧ oa'.readers = oa.readers ∧
      oa'.gotEOF = oa.gotEOF := by
  have := ht.2 a
  rw [ha] at this
  cases hb : h.objs a with
  | none => rw [hb] at this; cases this
  | some oa =>
    rw [hb] at this
    simp only [Option.map_some', Option.some.injEq, Obj.shape, Prod.mk.injEq] at this
    exact ⟨oa, rfl, this⟩

theorem live {h h' : Heap} (ht : h.Tame h') (q : Nat) : h'.objs q ≠ none ↔ h.objs q ≠ none := by
  have := ht.2 q
  cases h1 : h'.objs q <;> cases h2 : h.objs q <;> simp_all

end Heap.Tame

theorem Heap.Intact.tame {h h' : Heap} (hi : h.Intact) (ht : h.Tame h') : h'.Intact := by
  refine ⟨⟨fun a b oa' ob' ha hb => ?_, fun a oa' ha => ?_⟩, fun q oq hq => ?_, fun q oq hq => ?_⟩
  · obtain ⟨oa, ha0, hw, -, -⟩ := ht.obj ha
    obtain ⟨ob, hb0, -, hr, -⟩ := ht.obj hb
    rw [hw, hr]; exact hi.symmetric.1 a b oa ob ha0 hb0
  · obtain ⟨oa, ha0, hw, hr, -⟩ := ht.obj ha
    rw [hw, hr]
    exact ⟨fun w hw' => (ht.live w).mpr ((hi.symmetric.2 a oa ha0).1 w hw'),
      fun r hr' => (ht.live r).mpr ((hi.symmetric.2 a oa ha0).2 r hr')⟩
  · obtain ⟨o, ho, -⟩ := ht.obj hq
    rw [ht.1]; exact hi.belowFresh q o ho
  · obtain ⟨o, ho, -, -, he⟩ := ht.obj hq
    rw [he]; exact hi.noEOF q o ho

/-! ## The calls that close nothing -/

section
variable {N : Nat} {h h' : Heap}

theorem openObj_tame {obj : Nat} {openFd : Int} {now : String}
    (hok : openObj N h obj openFd now = .ok h') : h.Tame h' := by
  simp only [openObj, bind_eq_ok] at hok
  obtain ⟨o, ho, -, -, hok⟩ := hok
  split at hok
  · simp only [bind_eq_ok] at hok
    obtain ⟨wo, -, -, -, hok⟩ := hok
    split at hok
    · cases hok; exact .set _ (Heap.get_eq_ok.mp ho) rfl
    · simp only [bind_eq_ok] at hok
      obtain ⟨⟨buf, _⟩, -, hok⟩ := hok
      cases hok; exact .set _ (Heap.get_eq_ok.mp ho) rfl
  · cases hok; exact .refl h

theorem openIfClosed_tame {obj : Nat} {openFd : Int} {now : String}
    (hok : openIfClosed N h obj openFd now = .ok h') : h.Tame h' := by
  simp only [openIfClosed, bind_eq_ok] at hok
  obtain ⟨o, -, hok⟩ := hok
  split at hok
  · exact openObj_tame hok
  · cases hok; exact .refl h

/-- `create_obj_link` onto an object nobody writes to steals nothing and keeps the
invariant. -/
theorem createObjLink_intact {fuel : Nat} {src dst : Nat} {openFd : Int} {now : String}
    {so d : Obj} (hi : h.Intact) (hsd : src ≠ dst) (hso : h.objs src = some so)
    (hd : h.objs dst = some d) (hdw : d.writer = none)
    (hok : createObjLink N fuel h src dst openFd now = .ok h') : h'.Intact := by
  simp only [createObjLink, Heap.get_of_objs hd, pure_bind, stealIfWritten, hdw,
    linkObjs_eq hsd hso hd, bind_eq_ok] at hok
  obtain ⟨h3, h3ok, h4, h4ok, hok⟩ := hok
  cases h3ok
  exact ((hi.linkObjs hsd hso hd hdw).tame (openIfClosed_tame h4ok)).tame (openIfClosed_tame hok)

theorem feedReader_tame {r : Nat} {d : List UInt8} (hok : feedReader N h r d = .ok h') :
    h.Tame h' := by
  simp only [feedReader, bind_eq_ok] at hok
  obtain ⟨ro, hro, hok⟩ := hok
  split at hok
  · cases hok; exact .refl h
  · simp only [bind_eq_ok] at hok
    obtain ⟨⟨buf, L⟩, -, hok⟩ := hok
    cases hok; exact .set _ (Heap.get_eq_ok.mp hro) rfl

theorem fanOut_tame {d : List UInt8} :
    ∀ {h h' : Heap} {rs : List Nat}, fanOut N d h rs = .ok h' → h.Tame h'
  | _, _, [], hok => by cases hok; exact .refl _
  | _, _, _ :: _, hok => by
    simp only [fanOut, bind_eq_ok] at hok
    obtain ⟨h2, h2ok, hok⟩ := hok
    exact (feedReader_tame h2ok).trans (fanOut_tame hok)

/-- A read that is not end of file only stamps the socket and fills its readers' buffers. -/
theorem readFromObj_tame {fuel obj : Nat} {res : ReadOutcome} {now : Int}
    (hres : ∀ d, res = .bytes d → d.take (N - 1) ≠ [])
    (hok : readFromObj N fuel h obj res now = .ok h') : h.Tame h' := by
  simp only [readFromObj, bind_eq_ok] at hok
  obtain ⟨o, ho, _, -, hok⟩ := hok
  split at hok
  · cases hok; exact .refl h
  · cases hok
  · rename_i d
    rw [if_neg (hres d rfl)] at hok
    simp only [bind_eq_ok] at hok
    obtain ⟨h2, h2ok, hok⟩ := hok
    refine Heap.Tame.trans ?_ (fanOut_tame hok)
    unfold stampRead at h2ok
    split at h2ok
    · split at h2ok
      · cases h2ok
      · cases h2ok; exact .set _ (Heap.get_eq_ok.mp ho) rfl
    · cases h2ok; exact .refl h

theorem flushRun_shape {o o' : Obj} {kernel : List UInt8 → WriteOutcome}
    (hne : kernel (o.buf.pending N) ≠ .epipe) (hok : flushRun N o kernel = .ok o') :
    o'.shape = o.shape := by
  unfold flushRun at hok
  split at hok
  · revert hok hne
    cases kernel (o.buf.pending N) <;> intro hne hok <;> simp only [afterWrite] at hok
    · split at hok <;> cases hok <;> rfl
    · exact absurd rfl hne
    · cases hok; rfl
    · cases hok
  · cases hok; rfl

/-- A write the kernel does not answer with EPIPE, to an object not at EOF, only drains
its buffer: it never reaches `close_obj`. -/
theorem writeToObj_tame {fuel obj : Nat} {kernel : List UInt8 → WriteOutcome}
    (hne : ∀ o, h.objs obj = some o → kernel (o.buf.pending N) ≠ .epipe) (he : h.NoEOF)
    (hok : writeToObj N fuel h obj kernel = .ok h') : h.Tame h' := by
  simp only [writeToObj, bind_eq_ok] at hok
  obtain ⟨o, ho, _, -, _, -, o', hflush, _, -, hok⟩ := hok
  have ho' := Heap.get_eq_ok.mp ho
  have hshape := flushRun_shape (hne o ho') hflush
  have heof : o'.gotEOF = false := by
    have : o'.gotEOF = o.gotEOF := congrArg (fun s => s.2.2) hshape
    rw [this, he obj o ho']
  rw [if_neg (by simp [heof])] at hok
  cases hok; exact .set _ ho' hshape

end

/-- The calls that close nothing: a link onto an object nobody writes to, so that nothing
is stolen; a read that is not end of file; a write the kernel does not answer with EPIPE;
and never `close_obj` itself. -/
def Action.closeFree (N : Nat) (h : Heap) : Action → Bool
  | .link src dst openFd now =>
    Action.allowed h (.link src dst openFd now) &&
      match h.objs dst with
      | some d => d.writer.isNone
      | none => false
  | .close _ => false
  | .read _ (.bytes d) _ => !(d.take (N - 1)).isEmpty
  | .write obj kernel =>
    match h.objs obj with
    | some o => kernel (o.buf.pending N) != .epipe
    | none => true
  | _ => true

/-- One call that closes nothing keeps the invariant. -/
theorem step_intact {N fuel : Nat} {h h' : Heap} {a : Action} (hi : h.Intact)
    (ha : Action.closeFree N h a = true) (hok : step N fuel h a = .ok h') : h'.Intact := by
  cases a with
  | createConsole name dev log rst bps =>
    simp only [step, createConsoleObj, map_eq_ok, bind_eq_ok] at hok
    obtain ⟨_, ⟨_, -, _, -, hok⟩, rfl⟩ := hok
    cases hok; exact hi.alloc rfl rfl rfl
  | createLogfile name => cases hok; exact hi.alloc rfl rfl rfl
  | createSocket user host sd now =>
    simp only [step, createSocketObj, map_eq_ok, bind_eq_ok] at hok
    obtain ⟨_, ⟨_, -, hok⟩, rfl⟩ := hok
    split at hok
    · cases hok
    · cases hok; exact hi.alloc rfl rfl rfl
  | link src dst openFd now =>
    simp only [Action.closeFree, Action.allowed, Bool.and_eq_true, bne_iff_ne, ne_eq] at ha
    cases hso : h.objs src <;> cases hd : h.objs dst <;> simp only [hso, hd] at ha
    · cases ha.1.2
    · cases ha.1.2
    · cases ha.2
    · exact createObjLink_intact hi ha.1.1 hso hd (Option.isNone_iff_eq_none.mp ha.2) hok
  | close obj => cases ha
  | read obj res now =>
    refine hi.tame (readFromObj_tame (fun d hd => ?_) hok)
    subst hd
    simpa [Action.closeFree] using ha
  | write obj kernel =>
    refine hi.tame (writeToObj_tame (fun o ho => ?_) hi.noEOF hok)
    simpa [Action.closeFree, ho] using ha

/-- In every state reached from the empty heap by calls that close nothing, the links are
symmetric, every live object lies below the fresh address and no object is at EOF. -/
theorem Reachable.intact {N : Nat} {h : Heap} (hr : Reachable N (Action.closeFree N) h) :
    h.Intact := by
  induction hr with
  | empty => exact Heap.intact_empty
  | step a fuel _ ha hok ih => exact step_intact ih ha hok

/-- **The links stay symmetric as long as nothing is closed.** In every state reached
from the empty heap by creations, links onto objects nobody writes to, reads that are not
end of file and writes the kernel does not answer with EPIPE, the links are symmetric. -/
theorem Reachable.symmetric_of_closeFree {N : Nat} {h : Heap}
    (hr : Reachable N (Action.closeFree N) h) : h.Symmetric :=
  hr.intact.symmetric

/-- The graph `twoClients` builds before its close: client `s1` (2) reads console `c2` (0)
and writes console `c` (1), which client `s2` (3) reads. -/
def linkedHeap : Heap :=
  match run 8 (Action.closeFree 8) 2 Heap.empty twoClients.dropLast with
  | .ok h => h
  | .error _ => Heap.empty

theorem linkedHeap_reachable : Reachable 8 (Action.closeFree 8) linkedHeap :=
  Reachable.run Reachable.empty
    (show run 8 (Action.closeFree 8) 2 Heap.empty twoClients.dropLast = .ok linkedHeap from rfl)

theorem linked_clients_symmetric : linkedHeap.Symmetric :=
  Reachable.symmetric_of_closeFree linkedHeap_reachable

end Conman
