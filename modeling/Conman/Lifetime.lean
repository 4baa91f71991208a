/-
Which objects a run frees. Only `close_obj` frees, and only a socket: consoles and
logfiles, the objects `conf->objs` holds, stay live for the rest of the run with their
name and their settings (`run_keeps_devices`), whatever the calls and the kernel's
answers. Each call that allocates nothing is a `Heap.Evolves` step: the fresh address
stays, no freed address comes back, and consoles and logfiles are kept; `close_obj` is
one by `CloseFrame`, and the allocations keep what lies below the fresh address.
-/
import Conman.Symmetry

namespace Conman

namespace Heap

/-- Every console and logfile of `h` is live in `h'` with its name and its `aux`. -/
def Retains (h h' : Heap) : Prop :=
  ∀ p o, h.objs p = some o → o.type ≠ .socket →
    ∃ o', h'.objs p = some o' ∧ o'.name = o.name ∧ o'.aux = o.aux

theorem Retains.refl (h : Heap) : h.Retains h := fun _ o ho _ => ⟨o, ho, rfl, rfl⟩

theorem Retains.trans {h1 h2 h3 : Heap} (h12 : h1.Retains h2) (h23 : h2.Retains h3) :
    h1.Retains h3 := by
  intro p o1 ho1 hs
  obtain ⟨o2, ho2, n2, a2⟩ := h12 p o1 ho1 hs
  obtain ⟨o3, ho3, n3, a3⟩ := h23 p o2 ho2 (by rwa [Obj.type, a2])
  exact ⟨o3, ho3, n3.trans n2, a3.trans a2⟩

/-- What a call that allocates nothing makes of the heap. -/
structure Evolves (h h' : Heap) : Prop where
  fresh_eq : h'.fresh = h.fresh
  dead : ∀ p, h.objs p = none → h'.objs p = none
  retains : h.Retains h'

namespace Evolves

theorem refl (h : Heap) : h.Evolves h := ⟨rfl, fun _ hp => hp, .refl h⟩

theorem trans {h1 h2 h3 : Heap} (h12 : h1.Evolves h2) (h23 : h2.Evolves h3) : h1.Evolves h3 :=
  ⟨h23.fresh_eq.trans h12.fresh_eq, fun p hp => h23.dead p (h12.dead p hp),
    h12.retains.trans h23.retains⟩

/-- A store at a live address that keeps the object's name, and its `aux` unless it is a
socket. -/
theorem set {h : Heap} {p : Nat} {o : Obj} (o' : Obj) (hp : h.objs p = some o)
    (hn : o'.name = o.name) (ha : o.type ≠ .socket → o'.aux = o.aux) :
    h.Evolves (h.set p o') := by
  refine ⟨rfl, fun q hq => ?_, fun q oq hq hs => ?_⟩
  · rw [objs_set, if_neg (by rintro rfl; rw [hp] at hq; cases hq)]; exact hq
  · by_cases hqp : q = p
    · subst hqp; rw [hp] at hq; cases hq
      exact ⟨o', objs_set_self _ _ _, hn, ha hs⟩
    · exact ⟨oq, by rw [objs_set_ne _ _ hqp]; exact hq, rfl, rfl⟩

/-- Freeing a socket. -/
theorem free {h : Heap} {p : Nat} {o : Obj} (hp : h.objs p = some o) (hs : o.type = .socket) :
    h.Evolves (h.free p) := by
  refine ⟨rfl, fun q hq => ?_, fun q oq hq hq' => ?_⟩
  · rw [objs_free]; split_ifs <;> simp_all
  · have hqp : q ≠ p := by rintro rfl; rw [hp] at hq; cases hq; exact hq' hs
    exact ⟨oq, by rw [objs_free_ne _ hqp]; exact hq, rfl, rfl⟩

theorem belowFresh {h h' : Heap} (he : h.Evolves h') (hb : h.BelowFresh) : h'.BelowFresh := by
  intro p o hp
  cases hq : h.objs p with
  | none => rw [he.dead p hq] at hp; cases hp
  | some oq => exact he.fresh_eq ▸ hb p oq hq

end Evolves

/-- An allocation keeps every object below the fresh address, and every console and
logfile. -/
theorem BelowFresh.alloc_retains {h : Heap} (hb : h.BelowFresh) (o : Obj) :
    (h.alloc o).1.BelowFresh ∧ h.Retains (h.alloc o).1 :=
  ⟨hb.alloc o, fun _ oq hq _ => ⟨oq, hb.alloc_objs o hq, rfl, rfl⟩⟩

end Heap

/-! ## `close_obj` frees only sockets -/

theorem closeFinish_evolves {h h' : Heap} {obj : Nat} (hok : closeFinish h obj = .ok h') :
    h.Evolves h' := by
  simp only [closeFinish, bind_eq_ok] at hok
  obtain ⟨o, ho, hok⟩ := hok
  have ho := Heap.get_eq_ok.mp ho
  split at hok
  · cases hok; exact .set _ ho rfl fun _ => rfl
  · have k := Heap.Evolves.set { o with gotEOF := false, fd := if 0 ≤ o.fd then -1 else o.fd }
      ho rfl fun _ => rfl
    split at hok
    · rw [destroyObj_eq (Heap.objs_set_self _ _ _)] at hok
      split at hok
      · cases hok
      · cases hok; exact k.trans (.free (Heap.objs_set_self _ _ _) ‹_›)
    · cases hok; exact k

theorem Heap.Evolves.closeFrame : CloseFrame Heap.Evolves :=
  ⟨.refl, .trans, fun o' hp hn _ ha => .set o' hp hn fun _ => ha, closeFinish_evolves⟩

/-! ## Every call that allocates nothing -/

section
variable {N : Nat} {h h' : Heap}

theorem openObj_evolves {obj : Nat} {openFd : Int} {now : String}
    (hok : openObj N h obj openFd now = .ok h') : h.Evolves h' := by
  simp only [openObj, bind_eq_ok] at hok
  obtain ⟨o, ho, -, -, hok⟩ := hok
  split at hok
  · simp only [bind_eq_ok] at hok
    obtain ⟨wo, -, -, -, hok⟩ := hok
    split at hok
    · cases hok; exact .set _ (Heap.get_eq_ok.mp ho) rfl fun _ => rfl
    · simp only [bind_eq_ok] at hok
      obtain ⟨⟨buf, _⟩, -, hok⟩ := hok
      cases hok; exact .set _ (Heap.get_eq_ok.mp ho) rfl fun _ => rfl
  · cases hok; exact .refl h

theorem openIfClosed_evolves {obj : Nat} {openFd : Int} {now : String}
    (hok : openIfClosed N h obj openFd now = .ok h') : h.Evolves h' := by
  simp only [openIfClosed, bind_eq_ok] at hok
  obtain ⟨o, -, hok⟩ := hok
  split at hok
  · exact openObj_evolves hok
  · cases hok; exact .refl h

theorem linkObjs_evolves {src dst : Nat} (hok : linkObjs h src dst = .ok h') : h.Evolves h' := by
  simp only [linkObjs, bind_eq_ok] at hok
  obtain ⟨d, hd, so, hso, hok⟩ := hok
  cases hok
  exact (Heap.Evolves.set { d with writer := some src } (Heap.get_eq_ok.mp hd) rfl
    fun _ => rfl).trans (.set { so with readers := so.readers ++ [dst] } (Heap.get_eq_ok.mp hso)
      rfl fun _ => rfl)

theorem createObjLink_evolves {fuel src dst : Nat} {openFd : Int} {now : String}
    (hok : createObjLink N fuel h src dst openFd now = .ok h') : h.Evolves h' := by
  simp only [createObjLink, bind_eq_ok] at hok
  obtain ⟨d, -, h1, h1ok, h2, h2ok, h3, h3ok, hok⟩ := hok
  refine Heap.Evolves.trans ?_ (((linkObjs_evolves h2ok).trans (openIfClosed_evolves h3ok)).trans
    (openIfClosed_evolves hok))
  unfold stealIfWritten at h1ok
  split at h1ok
  · cases h1ok; exact .refl h
  · simp only [stealConsole, bind_eq_ok] at h1ok
    obtain ⟨-, -, _, -, -, -, _, -, wo, hwo, _, -, bl, -, h1ok⟩ := h1ok
    exact (Heap.Evolves.set { wo with buf := bl.1 } (Heap.get_eq_ok.mp hwo) rfl
      fun _ => rfl).trans (Heap.Evolves.closeFrame.closeObj h1ok)

theorem feedReader_evolves {r : Nat} {d : List UInt8} (hok : feedReader N h r d = .ok h') :
    h.Evolves h' := by
  simp only [feedReader, bind_eq_ok] at hok
  obtain ⟨ro, hro, hok⟩ := hok
  split at hok
  · cases hok; exact .refl h
  · simp only [bind_eq_ok] at hok
    obtain ⟨⟨buf, L⟩, -, hok⟩ := hok
    cases hok; exact .set _ (Heap.get_eq_ok.mp hro) rfl fun _ => rfl

theorem fanOut_evolves {d : List UInt8} :
    ∀ {h h' : Heap} {rs : List Nat}, fanOut N d h rs = .ok h' → h.Evolves h'
  | _, _, [], hok => by cases hok; exact .refl _
  | _, _, _ :: _, hok => by
    simp only [fanOut, bind_eq_ok] at hok
    obtain ⟨h2, h2ok, hok⟩ := hok
    exact (feedReader_evolves h2ok).trans (fanOut_evolves hok)

theorem readFromObj_evolves {fuel obj : Nat} {res : ReadOutcome} {now : Int}
    (hok : readFromObj N fuel h obj res now = .ok h') : h.Evolves h' := by
  simp only [readFromObj, bind_eq_ok] at hok
  obtain ⟨o, ho, _, -, hok⟩ := hok
  split at hok
  · cases hok; exact .refl h
  · cases hok
  · split at hok
    · exact Heap.Evolves.closeFrame.closeObj hok
    · simp only [bind_eq_ok] at hok
      obtain ⟨h2, h2ok, hok⟩ := hok
      refine Heap.Evolves.trans ?_ (fanOut_evolves hok)
      rcases stampRead_cases h2ok with rfl | rfl
      · exact .refl _
      · exact .set _ (Heap.get_eq_ok.mp ho) rfl (ObjAux.touch_of_ne now)

theorem flushRun_aux {o o' : Obj} {kernel : List UInt8 → WriteOutcome}
    (hok : flushRun N o kernel = .ok o') : o'.name = o.name ∧ o'.aux = o.aux := by
  unfold flushRun at hok
  split at hok
  · revert hok
    cases kernel (o.buf.pending N) <;> intro hok <;> simp only [afterWrite] at hok
    · split at hok <;> cases hok <;> exact ⟨rfl, rfl⟩
    · cases hok; exact ⟨rfl, rfl⟩
    · cases hok; exact ⟨rfl, rfl⟩
    · cases hok
  · cases hok; exact ⟨rfl, rfl⟩

theorem writeToObj_evolves {fuel obj : Nat} {kernel : List UInt8 → WriteOutcome}
    (hok : writeToObj N fuel h obj kernel = .ok h') : h.Evolves h' := by
  simp only [writeToObj, bind_eq_ok] at hok
  obtain ⟨o, ho, _, -, _, -, o', ho', _, -, hok⟩ := hok
  obtain ⟨hn, ha⟩ := flushRun_aux ho'
  have k := Heap.Evolves.set o' (Heap.get_eq_ok.mp ho) hn fun _ => ha
  split at hok
  · exact k.trans (Heap.Evolves.closeFrame.closeObj hok)
  · cases hok; exact k

/-- One call keeps every object below the fresh address, and every console and logfile. -/
theorem step_retains {fuel : Nat} {a : Action} (hb : h.BelowFresh)
    (hok : step N fuel h a = .ok h') : h'.BelowFresh ∧ h.Retains h' := by
  have ev : h.Evolves h' → h'.BelowFresh ∧ h.Retains h' := fun he =>
    ⟨he.belowFresh hb, he.retains⟩
  cases a with
  | createConsole name dev log rst bps =>
    simp only [step, createConsoleObj, map_eq_ok, bind_eq_ok] at hok
    obtain ⟨_, ⟨_, -, _, -, hok⟩, rfl⟩ := hok
    cases hok; exact hb.alloc_retains _
  | createLogfile name => cases hok; exact hb.alloc_retains _
  | createSocket user host sd now =>
    simp only [step, createSocketObj, map_eq_ok, bind_eq_ok] at hok
    obtain ⟨_, ⟨_, -, hok⟩, rfl⟩ := hok
    split at hok
    · cases hok
    · cases hok; exact hb.alloc_retains _
  | link src dst openFd now => exact ev (createObjLink_evolves hok)
  | close obj => exact ev (Heap.Evolves.closeFrame.closeObj hok)
  | read obj res now => exact ev (readFromObj_evolves hok)
  | write obj kernel => exact ev (writeToObj_evolves hok)

end

section
variable {N fuel : Nat} {allowed : Heap → Action → Bool}

theorem Reachable.belowFresh {h : Heap} (hr : Reachable N allowed h) : h.BelowFresh := by
  induction hr with
  | empty => intro _ _ hp; cases hp
  | step a fuel _ _ hok ih => exact (step_retains ih hok).1

theorem run_retains : ∀ {h h' : Heap} {as : List Action}, h.BelowFresh →
    run N allowed fuel h as = .ok h' → h.Retains h'
  | _, _, [], _, hok => by cases hok; exact .refl _
  | h, _, a :: as, hb, hok => by
    simp only [run] at hok
    split at hok
    · simp only [bind_eq_ok] at hok
      obtain ⟨h2, h2ok, hok⟩ := hok
      obtain ⟨hb2, k⟩ := step_retains hb h2ok
      exact k.trans (run_retains hb2 hok)
    · cases hok

/-- **Consoles and logfiles are never freed.** From any reachable state, after any run of
calls, whatever the kernel answers, every console and logfile that was live is still
live, with its name and its settings: only sockets are ever freed. -/
theorem run_keeps_devices {h h' : Heap} {as : List Action} (hr : Reachable N allowed h)
    (hrun : run N allowed fuel h as = .ok h') :
    ∀ p o, h.objs p = some o → o.type ≠ .socket →
      ∃ o', h'.objs p = some o' ∧ o'.name = o.name ∧ o'.aux = o.aux :=
  run_retains hr.belowFresh hrun

end

/-- Closing console `c` (1) of `linkedHeap` frees no console. -/
theorem closed_console_stays :
    ∃ h', run 8 Action.allowed 2 linkedHeap [.close 1] = .ok h' ∧
      ∀ p o, linkedHeap.objs p = some o → o.type ≠ .socket →
        ∃ o', h'.objs p = some o' ∧ o'.name = o.name ∧ o'.aux = o.aux :=
  ⟨_, rfl, @run_keeps_devices 8 2 Action.allowed linkedHeap _ [.close 1]
    (Reachable.run Reachable.empty
      (show run 8 Action.allowed 2 Heap.empty twoClients.dropLast = .ok linkedHeap from rfl)) rfl⟩

end Conman
