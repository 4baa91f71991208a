/-
`read_from_obj` (`server-obj.c`), the producer side of the engine: the bytes read from an
object's descriptor go, by `write_obj_data`, into the buffer of each of its readers that
is not at EOF; a read of no bytes is end of file and closes the object.

The fan-out skips readers at EOF and changes nothing but its readers' buffers
(`fanOut_objs`), and each buffer it touches takes the bytes as `write_obj_data` does.
-/
import Conman.Close

namespace Conman

/-- What `read()` answers once `goto again` has retried every EINTR. -/
inductive ReadOutcome where
  /-- The bytes the descriptor has; `read(fd, buf, sizeof(buf))` takes at most
  `MAX_BUF_SIZE - 1` of them, and taking none is end of file. -/
  | bytes (d : List UInt8)
  /-- EAGAIN or EWOULDBLOCK. -/
  | again
  /-- Any other errno: `err_msg` exits. -/
  | failed
deriving DecidableEq, Repr

/-- `time(&obj->aux.socket.timeLastRead)`: a socket records when it was last read. -/
def ObjAux.touch (now : Int) : ObjAux → ObjAux
  | .socket gotIAC _ => .socket gotIAC now
  | a => a

@[simp] theorem ObjAux.type_touch (now : Int) (a : ObjAux) : (a.touch now).type = a.type := by
  cases a <;> rfl

theorem ObjAux.touch_of_ne {a : ObjAux} (now : Int) (h : a.type ≠ .socket) : a.touch now = a := by
  cases a <;> first | rfl | exact absurd rfl h

section
variable (N : Nat)

/-- `if (!reader->gotEOF) write_obj_data(reader, buf, n);` -/
def feedReader (h : Heap) (r : Nat) (d : List UInt8) : Except Fault Heap := do
  let ro ← h.get r
  if ro.gotEOF then pure h else do
    let (buf, _) ← writeObjData N ro.buf d d.length
    pure (h.set r { ro with buf := buf })

/-- The loop `while ((reader = list_next(i))) ...` over the readers the object had when
the loop began. -/
def fanOut (d : List UInt8) : Heap → List Nat → Except Fault Heap
  | h, [] => pure h
  | h, r :: rs => do
    let h ← feedReader N h r d
    fanOut d h rs

/-- `time(&obj->aux.socket.timeLastRead)` for a socket; `err_msg` exits when `time()`
fails. -/
def stampRead (h : Heap) (obj : Nat) (o : Obj) (now : Int) : Except Fault Heap :=
  if o.type = .socket then
    if now = -1 then throw .fatal else pure (h.set obj { o with aux := o.aux.touch now })
  else pure h

/-- `read_from_obj(obj)`; `now` is what `time()` answers and `fuel` bounds the
`close_obj` of end of file. `parse_buf_for_control` does nothing upstream and is left
out. -/
def readFromObj (fuel : Nat) (h : Heap) (obj : Nat) (res : ReadOutcome) (now : Int) :
    Except Fault Heap := do
  let o ← h.get obj
  assertC (0 ≤ o.fd)
  match res with
  | .again => pure h
  | .failed => throw .fatal
  | .bytes d =>
    let d := d.take (N - 1)
    if d = [] then closeObj fuel h obj else do
    let h ← stampRead h obj o now
    fanOut N d h o.readers

end

/-! ## Spec lemmas -/

section
variable {N : Nat} {h : Heap}

/-- A reader not at EOF takes the bytes as `write_obj_data` does. -/
theorem feedReader_eq {r : Nat} {ro : Obj} {d : List UInt8} {b' : Buf} {L : Int}
    (hro : h.objs r = some ro) (heof : ro.gotEOF = false)
    (hw : writeObjData N ro.buf d d.length = .ok (b', L)) :
    feedReader N h r d = .ok (h.set r { ro with buf := b' }) := by
  simp only [feedReader, Heap.get_of_objs hro, heof, pure_bind]
  rw [hw]; rfl

/-- `stampRead` either leaves the heap as it is or stamps the object's `aux`. -/
theorem stampRead_cases {h h1 : Heap} {obj : Nat} {o : Obj} {now : Int}
    (hok : stampRead h obj o now = .ok h1) :
    h1 = h ∨ h1 = h.set obj { o with aux := o.aux.touch now } := by
  unfold stampRead at hok
  split_ifs at hok <;> cases hok
  exacts [.inr rfl, .inl rfl]

/-- A read of some bytes from an open socket stamps the socket and fans the bytes out to
its readers. -/
theorem readFromObj_bytes (fuel : Nat) {obj : Nat} {o : Obj} {d : List UInt8} {now : Int}
    (ho : h.objs obj = some o) (hfd : 0 ≤ o.fd) (hs : o.type = .socket) (hnow : now ≠ -1)
    (hd : d.take (N - 1) ≠ []) :
    readFromObj N fuel h obj (.bytes d) now =
      fanOut N (d.take (N - 1)) (h.set obj { o with aux := o.aux.touch now }) o.readers := by
  simp only [readFromObj, Heap.get_of_objs ho, assertC_of hfd, pure_bind, if_neg hd, stampRead,
    if_pos hs, if_neg hnow]

end

/-! ## Cursors stay in the array -/

section
variable {N : Nat}

theorem feedReader_allBounded {h h' : Heap} {r : Nat} {d : List UInt8} (hb : h.AllBounded N)
    (hok : feedReader N h r d = .ok h') : h'.AllBounded N := by
  simp only [feedReader, bind_eq_ok] at hok
  obtain ⟨ro, hro, hok⟩ := hok
  split at hok
  · cases hok; exact hb
  · simp only [bind_eq_ok] at hok
    obtain ⟨⟨buf, L⟩, hw, hok⟩ := hok
    cases hok
    exact hb.set (writeObjData_bounded (hb r ro (Heap.get_eq_ok.mp hro)) hw)

theorem fanOut_allBounded {d : List UInt8} :
    ∀ {h h' : Heap} {rs : List Nat}, h.AllBounded N → fanOut N d h rs = .ok h' → h'.AllBounded N
  | _, _, [], hb, hok => by cases hok; exact hb
  | _, _, _ :: _, hb, hok => by
    simp only [fanOut, bind_eq_ok] at hok
    obtain ⟨h2, h2ok, hok⟩ := hok
    exact fanOut_allBounded (feedReader_allBounded hb h2ok) hok

/-- `read_from_obj` keeps every cursor in the array. -/
theorem readFromObj_allBounded {fuel : Nat} {h h' : Heap} {obj : Nat} {res : ReadOutcome}
    {now : Int} (hb : h.AllBounded N) (hok : readFromObj N fuel h obj res now = .ok h') :
    h'.AllBounded N := by
  simp only [readFromObj, bind_eq_ok] at hok
  obtain ⟨o, ho, _, -, hok⟩ := hok
  split at hok
  · cases hok; exact hb
  · cases hok
  · split at hok
    · exact (closeObj_keeps hok).allBounded hb
    · simp only [bind_eq_ok] at hok
      obtain ⟨h2, h2ok, hok⟩ := hok
      refine fanOut_allBounded ?_ hok
      unfold stampRead at h2ok
      split at h2ok
      · split at h2ok
        · cases h2ok
        · cases h2ok; exact hb.set (hb obj o (Heap.get_eq_ok.mp ho))
      · cases h2ok; exact hb

end

end Conman
