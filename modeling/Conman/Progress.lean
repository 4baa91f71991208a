/-
What the calls that close nothing never do. In every state reached without a close, each
such call the event loop makes as its callers guarantee (`Action.contract`) returns, or
ends the daemon through `err_msg` when `time()`, `read()` or `write()` fails: no assert
fails and nothing dangles (`closeFree_step_safe`). With `close_breaks_link_symmetry`, the
calls that can go wrong are the closes.
-/
import Conman.Symmetry

namespace Conman

/-- What the callers guarantee before a call: a console has a name and a device, an
accepted socket a descriptor, a read or a write is made on a live object with an open
descriptor, and `write()` never reports more bytes written than it was handed. -/
def Action.contract (N : Nat) (h : Heap) : Action → Prop
  | .createConsole name dev _ _ _ => name ≠ "" ∧ dev ≠ ""
  | .createSocket _ _ sd _ => 0 ≤ sd
  | .read obj _ _ => ∃ o, h.objs obj = some o ∧ 0 ≤ o.fd
  | .write obj kernel => ∃ o, h.objs obj = some o ∧ 0 ≤ o.fd ∧
      ∀ n, kernel (o.buf.pending N) = .wrote n → n ≤ (o.buf.pending N).length
  | _ => True

section
variable {N : Nat} {h : Heap}

theorem writeObjData_bind_ok {β : Type} {b : Buf} (hb : b.Bounded N) {src : List UInt8}
    (hsrc : src ≠ []) {f : Buf × Int → Except Fault β} (hf : ∀ r, ∃ y, f r = .ok y) :
    ∃ y, writeObjData N b src src.length >>= f = .ok y := by
  obtain ⟨b', hw, -⟩ := writeObjData_ok N b hb src src.length
    (by have := List.length_pos.mpr hsrc; omega)
  obtain ⟨y, hy⟩ := hf (b', clampLen N src.length)
  exact ⟨y, by rw [hw]; exact hy⟩

/-- Opening a logfile whose writer is a console, or anything else, returns. -/
theorem openIfClosed_ok {obj w : Nat} {o wo : Obj} (openFd : Int) (now : String)
    (ho : h.objs obj = some o) (hb : o.buf.Bounded N) (hw : o.writer = some w)
    (hwo : h.objs w = some wo) (hwt : wo.type = .console) :
    ∃ h', openIfClosed N h obj openFd now = .ok h' := by
  simp only [openIfClosed, openObj, Heap.get_of_objs ho, pure_bind]
  split
  · rw [assertC_of ‹_›, pure_bind]
    split
    · simp only [Heap.deref, hw, Heap.get_of_objs hwo, assertC_of hwt, pure_bind]
      split
      · exact ⟨_, rfl⟩
      · exact writeObjData_bind_ok hb (logHeader_ne_nil _ _) fun _ => ⟨_, rfl⟩
    · exact ⟨h, rfl⟩
  · exact ⟨h, rfl⟩

/-- A link onto an object nobody writes to returns. -/
theorem createObjLink_ok {fuel src dst : Nat} {so d : Obj} (openFd : Int) (now : String)
    (hb : h.AllBounded N) (hsd : src ≠ dst) (hso : h.objs src = some so)
    (hd : h.objs dst = some d)
    (hk : linkKind so.type d.type = true) (hdw : d.writer = none) :
    ∃ h', createObjLink N fuel h src dst openFd now = .ok h' := by
  let h2 := (h.set dst { d with writer := some src }).set src
    { so with readers := so.readers ++ [dst] }
  have hso2 : h2.objs src = some { so with readers := so.readers ++ [dst] } :=
    Heap.objs_set_self _ _ _
  have hd2 : h2.objs dst = some { d with writer := some src } :=
    (Heap.objs_set_ne _ _ (Ne.symm hsd)).trans (Heap.objs_set_self _ _ _)
  have hsrc : openIfClosed N h2 src openFd now = .ok h2 :=
    openIfClosed_of_ne_logfile openFd now hso2
      (show so.type ≠ .logfile by revert hk; cases so.type <;> cases d.type <;> decide)
  simp only [createObjLink, Heap.get_of_objs hd, pure_bind, stealIfWritten, hdw,
    linkObjs_eq hsd hso hd]
  change ∃ h', (openIfClosed N h2 src openFd now >>= fun h => openIfClosed N h dst openFd now) =
    .ok h'
  rw [hsrc]
  change ∃ h', openIfClosed N h2 dst openFd now = .ok h'
  by_cases ht : d.type = .logfile
  · have hst : so.type = .console := by revert hk; rw [ht]; cases so.type <;> decide
    exact openIfClosed_ok openFd now hd2 (hb dst d hd) rfl hso2 hst
  · exact ⟨h2, openIfClosed_of_ne_logfile openFd now hd2 ht⟩

theorem fanOut_ok {d : List UInt8} (hd : d ≠ []) :
    ∀ {h : Heap} {rs : List Nat}, h.AllBounded N → (∀ r ∈ rs, h.objs r ≠ none) →
      ∃ h', fanOut N d h rs = .ok h'
  | h, [], _, _ => ⟨h, rfl⟩
  | h, r :: rs, hb, hl => by
    obtain ⟨ro, hro⟩ := Option.ne_none_iff_exists'.mp (hl r (.head rs))
    have hfeed : ∃ h1, feedReader N h r d = .ok h1 := by
      simp only [feedReader, Heap.get_of_objs hro, pure_bind]
      split
      · exact ⟨h, rfl⟩
      · exact writeObjData_bind_ok (hb r ro hro) hd fun _ => ⟨_, rfl⟩
    obtain ⟨h1, h1ok⟩ := hfeed
    obtain ⟨h', hok⟩ := fanOut_ok hd (feedReader_allBounded hb h1ok)
      fun q hq => ((feedReader_tame h1ok).live q).mpr (hl q (.tail _ hq))
    exact ⟨h', by simp only [fanOut, h1ok, bind, Except.bind]; exact hok⟩

/-- A read from an open object whose readers are live returns, unless `read()` or
`time()` fails. -/
theorem readFromObj_safe {fuel obj : Nat} {o : Obj} {res : ReadOutcome} {now : Int}
    (hb : h.AllBounded N) (ho : h.objs obj = some o) (hfd : 0 ≤ o.fd)
    (hl : ∀ r ∈ o.readers, h.objs r ≠ none)
    (hres : ∀ d, res = .bytes d → d.take (N - 1) ≠ []) :
    (∃ h', readFromObj N fuel h obj res now = .ok h') ∨
      readFromObj N fuel h obj res now = .error .fatal := by
  simp only [readFromObj, Heap.get_of_objs ho, assertC_of hfd, pure_bind]
  cases res with
  | again => exact .inl ⟨h, rfl⟩
  | failed => exact .inr rfl
  | bytes d =>
    simp only [if_neg (hres d rfl), stampRead]
    split_ifs
    · exact .inr rfl
    · refine .inl (fanOut_ok (hres d rfl) (hb.set (hb obj o ho)) fun r hr => ?_)
      rw [Heap.objs_set]; split_ifs
      · exact Option.some_ne_none _
      · exact hl r hr
    · exact .inl (fanOut_ok (hres d rfl) hb hl)

theorem flushRun_safe {o : Obj} {kernel : List UInt8 → WriteOutcome} (hb : o.buf.Bounded N)
    (hne : kernel (o.buf.pending N) ≠ .epipe)
    (hk : ∀ n, kernel (o.buf.pending N) = .wrote n → n ≤ (o.buf.pending N).length) :
    (∃ o', flushRun N o kernel = .ok o' ∧ o'.buf.Bounded N ∧ o'.gotEOF = o.gotEOF) ∨
      flushRun N o kernel = .error .fatal := by
  have hlen : (o.buf.pending N).length = o.buf.run N := by simp [Buf.pending]
  unfold flushRun
  split_ifs
  · revert hne hk
    cases kernel (o.buf.pending N) with
    | wrote n =>
      intro _ hk
      refine .inl ⟨_, rfl, ?_, by split <;> rfl⟩
      split
      · exact Buf.advance_bounded hb (hlen ▸ hk n rfl)
      · exact hb
    | epipe => intro hne; exact absurd rfl hne
    | again => intro _ _; exact .inl ⟨o, rfl, hb, rfl⟩
    | failed => intro _ _; exact .inr rfl
  · exact .inl ⟨o, rfl, hb, rfl⟩

/-- A write to an open object not at EOF returns, unless `write()` fails. -/
theorem writeToObj_safe {fuel obj : Nat} {o : Obj} {kernel : List UInt8 → WriteOutcome}
    (hb : h.AllBounded N) (ho : h.objs obj = some o) (hfd : 0 ≤ o.fd) (heof : o.gotEOF = false)
    (hne : kernel (o.buf.pending N) ≠ .epipe)
    (hk : ∀ n, kernel (o.buf.pending N) = .wrote n → n ≤ (o.buf.pending N).length) :
    (∃ h', writeToObj N fuel h obj kernel = .ok h') ∨
      writeToObj N fuel h obj kernel = .error .fatal := by
  have hbo := hb obj o ho
  rcases flushRun_safe hbo hne hk with ⟨o', hf, hb', he⟩ | hf
  · rw [writeToObj_finish N fuel kernel ho hfd hbo hf hb', if_neg (by rw [he, heof]; simp)]
    exact .inl ⟨_, rfl⟩
  · right
    simp only [writeToObj, Heap.get_of_objs ho, assertC_of hfd, assertC_of hbo, pure_bind, hf]
    rfl

end

/-- **The calls that close nothing fail no assert.** In every state reached without a
close, each call that closes nothing, made as its callers guarantee, returns, or ends the
daemon through `err_msg` because `time()`, `read()` or `write()` failed. -/
theorem closeFree_step_safe {N fuel : Nat} {h : Heap} (hN : 0 < N)
    (hr : Reachable N (Action.closeFree N) h) {a : Action} (ha : Action.closeFree N h a = true)
    (hc : a.contract N h) :
    (∃ h', step N fuel h a = .ok h') ∨ step N fuel h a = .error .fatal := by
  have hi := hr.intact
  have hb := hr.allBounded hN
  cases a with
  | createConsole name dev log rst bps =>
    obtain ⟨hn, hd⟩ := hc
    exact .inl ⟨_, by
      simp only [step, createConsoleObj, assertC_of hn, assertC_of hd, pure_bind]; rfl⟩
  | createLogfile name => exact .inl ⟨_, rfl⟩
  | createSocket user host sd now =>
    simp only [step, createSocketObj, assertC_of (show 0 ≤ sd from hc), pure_bind]
    split_ifs
    · exact .inr rfl
    · exact .inl ⟨_, rfl⟩
  | link src dst openFd now =>
    simp only [Action.closeFree, Action.allowed, Bool.and_eq_true, bne_iff_ne, ne_eq] at ha
    cases hso : h.objs src <;> cases hd : h.objs dst <;> simp only [hso, hd] at ha
    · cases ha.1.2
    · cases ha.1.2
    · cases ha.2
    · exact .inl (createObjLink_ok openFd now hb ha.1.1 hso hd ha.1.2
        (Option.isNone_iff_eq_none.mp ha.2))
  | close obj => cases ha
  | read obj res now =>
    obtain ⟨o, ho, hfd⟩ := hc
    exact readFromObj_safe hb ho hfd (fun r hm => (hi.symmetric.2 obj o ho).2 r hm)
      fun d hd => by subst hd; simpa [Action.closeFree] using ha
  | write obj kernel =>
    obtain ⟨o, ho, hfd, hk⟩ := hc
    exact writeToObj_safe hb ho hfd (hi.noEOF obj o ho)
      (by simpa [Action.closeFree, ho] using ha) hk

/-- Client `s1` (2) of `linkedHeap` sends a byte. -/
theorem linked_client_read_safe :
    (∃ h', step 8 2 linkedHeap (.read 2 (.bytes [72]) 1) = .ok h') ∨
      step 8 2 linkedHeap (.read 2 (.bytes [72]) 1) = .error .fatal :=
  closeFree_step_safe (by decide) linkedHeap_reachable (by decide) ⟨_, rfl, by decide⟩

end Conman
