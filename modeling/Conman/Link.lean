/-
`open_obj` and `create_obj_link` (`server-obj.c`): making a link, and stealing a console
from the client that writes to it.

A steal writes the notice into the displaced writer `W` and closes `W` with `close_obj`,
so it inherits that function's slip (`Conman.Close`): `W` loses only its first reader.
When `W` writes to other objects before the console, it keeps readers after the steal,
and its first reader still names `W` as its writer (`steal_keeps_displaced_readers`).
-/
import Conman.Close

namespace Conman

/-- The header `open_obj` writes into a logfile opened for the console `name`, `now` being
what `create_time_string(0)` answers. -/
def logHeader (name now : String) : List UInt8 :=
  cBytes ("* Console [" ++ name ++ "] log started on " ++ now ++ ".\n\n")

theorem logHeader_ne_nil (name now : String) : logHeader name now ≠ [] := by
  simp [logHeader, cBytes]

section
variable (N : Nat)

/-- `open_obj(obj)`. Opening a console is not implemented upstream and a socket is
already open, so only a logfile changes: its descriptor is what `open()` answers
(`openFd`, negative on failure), and an opened logfile gets the header naming its
writer console; `now` is what `create_time_string(0)` answers. The `if (obj->fd >= 0)`
after the assert is dead and left out. -/
def openObj (h : Heap) (obj : Nat) (openFd : Int) (now : String) : Except Fault Heap := do
  let o ← h.get obj
  assertC (o.fd < 0)
  match o.aux with
  | .logfile =>
    let wo ← h.deref o.writer
    assertC (wo.type = .console)
    let o := { o with fd := openFd }
    if openFd < 0 then pure (h.set obj o) else
    let str := logHeader wo.name now
    let (buf, _) ← writeObjData N o.buf str str.length
    pure (h.set obj { o with buf := buf })
  | _ => pure h

/-- A closed logfile with an empty buffer as `open_obj` leaves it for its console `name`:
its descriptor is what `open()` answered, and when that succeeded, its buffer holds the
header. -/
def Obj.opened (o : Obj) (name : String) (openFd : Int) (now : String) : Obj :=
  if openFd < 0 then { o with fd := openFd }
  else { o with fd := openFd, buf := o.buf.fill N (logHeader name now) }

section
variable {N : Nat} (o : Obj) (name : String) (openFd : Int) (now : String)

@[simp] theorem Obj.opened_aux : (o.opened N name openFd now).aux = o.aux := by
  unfold Obj.opened; split_ifs <;> rfl

@[simp] theorem Obj.opened_writer : (o.opened N name openFd now).writer = o.writer := by
  unfold Obj.opened; split_ifs <;> rfl

@[simp] theorem Obj.opened_readers : (o.opened N name openFd now).readers = o.readers := by
  unfold Obj.opened; split_ifs <;> rfl

@[simp] theorem Obj.opened_gotEOF : (o.opened N name openFd now).gotEOF = o.gotEOF := by
  unfold Obj.opened; split_ifs <;> rfl

end

/-- The steal block of `create_obj_link`, "If the dst console is already in R/W use by
another client, steal it!": the notice goes into the buffer of the writer `w`, which
is then closed. -/
def stealConsole (fuel : Nat) (h : Heap) (src dst w : Nat) (now : String) :
    Except Fault Heap := do
  let so ← h.get src
  assertC (so.type = .socket)
  let d ← h.get dst
  assertC (d.type = .console)
  let wo ← h.get w
  assertC (wo.type = .socket)
  let str := cBytes ("\nConsole \x27" ++ d.name ++ "\x27 stolen by <" ++ so.name ++ "> at " ++
    now ++ ".\n")
  let (buf, _) ← writeObjData N wo.buf str str.length
  closeObj fuel (h.set w { wo with buf := buf }) w

/-- "Create obj link where src writes to dst." -/
def linkObjs (h : Heap) (src dst : Nat) : Except Fault Heap := do
  let d ← h.get dst
  let h := h.set dst { d with writer := some src }
  let so ← h.get src
  pure (h.set src { so with readers := so.readers ++ [dst] })

/-- `if (obj->fd < 0) open_obj(obj);`, once for each end of the new link. -/
def openIfClosed (h : Heap) (obj : Nat) (openFd : Int) (now : String) : Except Fault Heap := do
  let o ← h.get obj
  if o.fd < 0 then openObj N h obj openFd now else pure h

/-- `if (dst->writer != NULL) { ... }`: the steal, when `dst` has a writer. -/
def stealIfWritten (fuel : Nat) (h : Heap) (src dst : Nat) (d : Obj) (now : String) :
    Except Fault Heap :=
  match d.writer with
  | none => pure h
  | some w => stealConsole N fuel h src dst w now

/-- `create_obj_link(src, dst)`: steal `dst` from its writer if it has one, link, and
"Ensure both objs are active". `fuel` bounds the steal's `close_obj`. -/
def createObjLink (fuel : Nat) (h : Heap) (src dst : Nat) (openFd : Int) (now : String) :
    Except Fault Heap := do
  let d ← h.get dst
  let h ← stealIfWritten N fuel h src dst d now
  let h ← linkObjs h src dst
  let h ← openIfClosed N h src openFd now
  openIfClosed N h dst openFd now

end

/-! ## Frames -/

section
variable {N : Nat} {h h' : Heap}

/-- The link itself changes `src` and `dst` alone. -/
theorem linkObjs_eq {src dst : Nat} {so d : Obj} (hsd : src ≠ dst) (hso : h.objs src = some so)
    (hd : h.objs dst = some d) :
    linkObjs h src dst =
      .ok ((h.set dst { d with writer := some src }).set src { so with readers := so.readers ++ [dst] }) := by
  simp only [linkObjs, Heap.get_of_objs hd, pure_bind,
    Heap.get_of_objs ((h.objs_set_ne _ hsd).trans hso)]
  rfl

/-- Opening a closed logfile with an empty buffer, written by a console. -/
theorem openIfClosed_logfile (hN : 0 < N) {obj c : Nat} {o co : Obj} (openFd : Int) (now : String)
    (ho : h.objs obj = some o) (hfd : o.fd < 0) (ht : o.aux = .logfile) (hw : o.writer = some c)
    (hc : h.objs c = some co) (hct : co.type = .console) (hin : o.buf.bufIn = 0)
    (hout : o.buf.bufOut = 0) :
    openIfClosed N h obj openFd now = .ok (h.set obj (o.opened N co.name openFd now)) := by
  simp only [openIfClosed, openObj, Heap.get_of_objs ho, pure_bind, if_pos hfd, assertC_of hfd,
    ht, Heap.deref, hw, Heap.get_of_objs hc, assertC_of hct, Obj.opened]
  split_ifs
  · rfl
  · rw [writeObjData_fill hN hin hout (logHeader_ne_nil _ _)]; rfl

/-- Opening a console or a socket changes nothing. -/
theorem openIfClosed_of_ne_logfile {obj : Nat} {o : Obj} (openFd : Int) (now : String)
    (ho : h.objs obj = some o) (ht : o.type ≠ .logfile) : openIfClosed N h obj openFd now = .ok h := by
  simp only [openIfClosed, openObj, Heap.get_of_objs ho, pure_bind]
  split
  · rw [assertC_of ‹_›, pure_bind]
    split
    · exact absurd (by simp [Obj.type, ObjAux.type, *]) ht
    · rfl
  · rfl


/-- Linking a console to a closed logfile nobody writes to, its buffer empty: the link,
then the open of the logfile. -/
theorem createObjLink_logfile (hN : 0 < N) (fuel : Nat) {src dst : Nat} {so d : Obj}
    (openFd : Int) (now : String) (hsd : src ≠ dst) (hso : h.objs src = some so)
    (hst : so.type = .console) (hd : h.objs dst = some d) (hdt : d.aux = .logfile)
    (hdw : d.writer = none) (hfd : d.fd < 0) (hin : d.buf.bufIn = 0) (hout : d.buf.bufOut = 0) :
    createObjLink N fuel h src dst openFd now =
      .ok (((h.set dst { d with writer := some src }).set src
        { so with readers := so.readers ++ [dst] }).set dst
          ({ d with writer := some src }.opened N so.name openFd now)) := by
  let h2 := (h.set dst { d with writer := some src }).set src
    { so with readers := so.readers ++ [dst] }
  have hso2 : h2.objs src = some { so with readers := so.readers ++ [dst] } :=
    Heap.objs_set_self _ _ _
  have hd2 : h2.objs dst = some { d with writer := some src } :=
    (Heap.objs_set_ne _ _ (Ne.symm hsd)).trans (Heap.objs_set_self _ _ _)
  simp only [createObjLink, Heap.get_of_objs hd, pure_bind, stealIfWritten, hdw,
    linkObjs_eq hsd hso hd]
  change (openIfClosed N h2 src openFd now >>= fun h => openIfClosed N h dst openFd now) = _
  rw [openIfClosed_of_ne_logfile openFd now hso2 (show so.type ≠ .logfile by rw [hst]; decide)]
  exact (openIfClosed_logfile hN openFd now hd2 hfd hdt rfl hso2 hst hin hout :)

end

/-! ## The steal -/

/-- The steal block writes the notice into `w`'s buffer and closes `w`. -/
theorem stealConsole_eq (N fuel : Nat) {h : Heap} {src dst w : Nat} {so d wo : Obj} (now : String)
    (hso : h.objs src = some so) (hst : so.type = .socket) (hd : h.objs dst = some d)
    (hdt : d.type = .console) (hwo : h.objs w = some wo) (hwt : wo.type = .socket)
    (hwb : wo.buf.Bounded N) :
    ∃ buf, stealConsole N fuel h src dst w now = closeObj fuel (h.set w { wo with buf := buf }) w := by
  let str := cBytes ("\nConsole \x27" ++ d.name ++ "\x27 stolen by <" ++ so.name ++ "> at " ++
    now ++ ".\n")
  have hlen : (0 : Int) < str.length := by simp [str, cBytes]; omega
  obtain ⟨buf, hw, -⟩ := writeObjData_ok N wo.buf hwb str str.length hlen
  refine ⟨buf, ?_⟩
  simp only [stealConsole, Heap.get_of_objs hso, Heap.get_of_objs hd, Heap.get_of_objs hwo,
    assertC_of hst, assertC_of hdt, assertC_of hwt, pure_bind]
  erw [hw]
  rfl

/-- **A steal leaves the displaced writer its other readers.** The console `dst` is
written by the socket `w`, which itself has a writer `x` that keeps another edge, and
whose first reader `r` is not itself. Stealing `dst` closes `w`, and that `close_obj`
pops only `r`: if `w` survives, it has no writer but its readers are the rest `rs` of
its list, which hold `dst` itself whenever `dst` was not `w`'s first reader. -/
theorem steal_keeps_displaced_readers (N fuel : Nat) {h : Heap} {src dst w x r : Nat}
    {rs : List Nat} {so d wo xo : Obj} (openFd : Int) (now : String)
    (hd : h.objs dst = some d) (hdw : d.writer = some w) (hso : h.objs src = some so)
    (hst : so.type = .socket) (hdt : d.type = .console) (hwo : h.objs w = some wo)
    (hwt : wo.type = .socket) (hwb : wo.buf.Bounded N)
    (hwx : wo.writer = some x) (hxo : h.objs x = some xo) (hxw : x ≠ w) (hmem : w ∈ xo.readers)
    (hkeep : xo.writer ≠ none ∨ xo.readers.erase w ≠ []) (hr : wo.readers = r :: rs)
    (hrw : r ≠ w) (hsw : src ≠ w) (hdw' : dst ≠ w) (hsx : src ≠ x) :
    ∃ h', createObjLink N (fuel + 1) h src dst openFd now = .ok h' ∧
      ∀ w', h'.objs w = some w' → w'.writer = none ∧ w'.readers = rs := by
  have hsd : src ≠ dst := by
    rintro rfl; rw [hso] at hd; cases hd; simp [hst] at hdt
  obtain ⟨buf, hsteal⟩ := stealConsole_eq N (fuel + 1) now hso hst hd hdt hwo hwt hwb
  -- the close of `w`
  set h1 := h.set w { wo with buf := buf }
  have hclose := closeObj_eq_of_writer_keeps fuel
    (show h1.objs w = some { wo with buf := buf } from Heap.objs_set_self _ _ _) hwx
    ((h.objs_set_ne _ hxw).trans hxo) hxw hmem hkeep (by simp [hr, hrw])
  set h2 := (h1.set x { xo with readers := xo.readers.erase w }).set w
    { wo with buf := buf, writer := none, readers := rs }
  obtain ⟨h3, hfin, -, h3objs⟩ := closeFinish_eq (Heap.objs_set_self (h1.set x
    { xo with readers := xo.readers.erase w }) w { wo with buf := buf, writer := none, readers := rs })
  -- the ends of the new link after the close
  have h3src : h3.objs src = some so := by
    rw [h3objs, if_neg hsw]; simp [h2, h1, hsw, hsx, hso]
  obtain ⟨d3, h3dst, hd3⟩ : ∃ d3, h3.objs dst = some d3 ∧ d3.type = .console := by
    rw [h3objs, if_neg hdw']
    by_cases hdx : dst = x
    · subst hdx; rw [hd] at hxo; cases hxo
      exact ⟨{ d with readers := d.readers.erase w }, by simp [h2, h1, hdw'], hdt⟩
    · exact ⟨d, by simp [h2, h1, hdw', hdx, hd], hdt⟩
  set h4 := (h3.set dst { d3 with writer := some src }).set src
    { so with readers := so.readers ++ [dst] }
  refine ⟨h4, ?_, fun w' hw' => ?_⟩
  · simp only [createObjLink, stealIfWritten, Heap.get_of_objs hd, hdw, pure_bind, bind_eq_ok]
    refine ⟨h3, by rw [hsteal, hclose, hr]; exact hfin, h4, linkObjs_eq hsd h3src h3dst, h4, ?_, ?_⟩
    · exact openIfClosed_of_ne_logfile openFd now (Heap.objs_set_self _ _ _)
        (by change so.type ≠ _; rw [hst]; decide)
    · exact openIfClosed_of_ne_logfile openFd now
        (by rw [Heap.objs_set_ne _ _ (Ne.symm hsd)]; exact Heap.objs_set_self _ _ _)
        (by change d3.type ≠ _; rw [hd3]; decide)
  · have : h4.objs w = h3.objs w := by
      rw [Heap.objs_set_ne _ _ (Ne.symm hsw), Heap.objs_set_ne _ _ (Ne.symm hdw')]
    rw [this, h3objs, if_pos rfl] at hw'
    simpa using Obj.closed_links hw'

/-- Client `w` (1) is attached read-write to console `c` (0) and also writes to console
`c2` (3); client `s` (2) is about to steal `c`. -/
def stealHeap : Heap :=
  ((((Heap.empty.alloc { createObj "c" (.console "/dev/ttyS0" .uninitialized .uninitialized 9600) with
      writer := some 1, readers := [1] }).1.alloc
    { createObj "w@h" (.socket false 0) with fd := 4, writer := some 0, readers := [0, 3] }).1.alloc
    { createObj "s@h" (.socket false 0) with fd := 5 }).1.alloc
    { createObj "c2" (.console "/dev/ttyS1" .uninitialized .uninitialized 9600) with writer := some 1 }).1

theorem steal_leaves_other_console_linked :
    ∃ h', createObjLink 8 (0 + 1) stealHeap 2 0 (-1) "now" = .ok h' ∧
      ∀ w', h'.objs 1 = some w' → w'.writer = none ∧ w'.readers = [3] :=
  @steal_keeps_displaced_readers 8 0 stealHeap 2 0 1 0 0 [3] _ _ _ _ (-1) "now" rfl rfl rfl rfl rfl
    rfl rfl (by decide) rfl rfl (by decide) (by decide) (.inl (by decide)) rfl (by decide)
    (by decide) (by decide) (by decide)

/-! ## Cursors stay in the array -/

section
variable {N fuel : Nat} {h h' : Heap} {openFd : Int}

theorem openObj_allBounded {obj : Nat} {now : String} (hb : h.AllBounded N)
    (hok : openObj N h obj openFd now = .ok h') : h'.AllBounded N := by
  simp only [openObj, bind_eq_ok] at hok
  obtain ⟨o, ho, -, -, hok⟩ := hok
  have hob := hb obj o (Heap.get_eq_ok.mp ho)
  split at hok
  · simp only [bind_eq_ok] at hok
    obtain ⟨wo, -, -, -, hok⟩ := hok
    split at hok
    · cases hok; exact hb.set hob
    · simp only [bind_eq_ok] at hok
      obtain ⟨⟨buf, _⟩, hw, hok⟩ := hok
      cases hok; exact hb.set (writeObjData_bounded hob hw)
  · cases hok; exact hb

theorem openIfClosed_allBounded {obj : Nat} {now : String} (hb : h.AllBounded N)
    (hok : openIfClosed N h obj openFd now = .ok h') : h'.AllBounded N := by
  simp only [openIfClosed, bind_eq_ok] at hok
  obtain ⟨o, -, hok⟩ := hok
  split at hok
  · exact openObj_allBounded hb hok
  · cases hok; exact hb

theorem linkObjs_keeps {src dst : Nat} (hok : linkObjs h src dst = .ok h') : h.Keeps h' := by
  simp only [linkObjs, bind_eq_ok] at hok
  obtain ⟨d, hd, so, hso, hok⟩ := hok
  cases hok
  exact (Heap.Keeps.set { d with writer := some src } (Heap.get_eq_ok.mp hd) rfl rfl rfl).trans
    (Heap.Keeps.set { so with readers := so.readers ++ [dst] } (Heap.get_eq_ok.mp hso) rfl rfl rfl)

/-- `create_obj_link` keeps every cursor in the array. -/
theorem createObjLink_allBounded {src dst : Nat} {now : String} (hb : h.AllBounded N)
    (hok : createObjLink N fuel h src dst openFd now = .ok h') : h'.AllBounded N := by
  simp only [createObjLink, bind_eq_ok] at hok
  obtain ⟨d, -, h1, h1ok, h2, h2ok, h3, h3ok, hok⟩ := hok
  have hb1 : h1.AllBounded N := by
    unfold stealIfWritten at h1ok
    split at h1ok
    · cases h1ok; exact hb
    · simp only [stealConsole, bind_eq_ok] at h1ok
      obtain ⟨so, -, _, -, d', -, _, -, wo, hwo, _, -, ⟨buf, L⟩, hw, h1ok⟩ := h1ok
      exact (closeObj_keeps h1ok).allBounded
        (hb.set (writeObjData_bounded (hb _ wo (Heap.get_eq_ok.mp hwo)) hw))
  exact openIfClosed_allBounded (openIfClosed_allBounded ((linkObjs_keeps h2ok).allBounded hb1) h3ok) hok

end

end Conman
