/-
The object graph as a state machine (`server-obj.c`): objects are created, linked,
closed, read from and written to, one call at a time, in whatever order the event loop
chooses and with whatever the kernel answers.

* Every cursor stays in the array in every reachable state (`Reachable.allBounded`), so
  no call of `write_obj_data` on a live object fails its asserts
  (`Reachable.writeObjData_succeeds`).
* The links are not kept symmetric. A close leaves the closed object's first reader
  naming it as writer (`close_breaks_link_symmetry`), and an object that reaches EOF
  with data still buffered keeps readers (`eof_object_keeps_reader`).
-/
import Conman.Link
import Conman.Flush
import Conman.Read

namespace Conman

/-- A call the event loop makes on the graph, with the kernel's answers. -/
inductive Action where
  | createConsole (name dev log rst : String) (bps : Int)
  | createLogfile (name : String)
  | createSocket (user host : String) (sd now : Int)
  | link (src dst : Nat) (openFd : Int) (now : String)
  | close (obj : Nat)
  | read (obj : Nat) (res : ReadOutcome) (now : Int)
  | write (obj : Nat) (kernel : List UInt8 → WriteOutcome)

section
variable (N : Nat)

/-- One call; `fuel` bounds the `close_obj` recursion it makes. -/
def step (fuel : Nat) (h : Heap) : Action → Except Fault Heap
  | .createConsole name dev log rst bps => Prod.fst <$> createConsoleObj h name dev log rst bps
  | .createLogfile name => pure (createLogfileObj h name).1
  | .createSocket user host sd now => Prod.fst <$> createSocketObj h user host sd now
  | .link src dst openFd now => createObjLink N fuel h src dst openFd now
  | .close obj => closeObj fuel h obj
  | .read obj res now => readFromObj N fuel h obj res now
  | .write obj kernel => writeToObj N fuel h obj kernel

/-- The states reached from the empty heap by calls that `allowed` admits. -/
inductive Reachable (allowed : Heap → Action → Bool) : Heap → Prop
  | empty : Reachable allowed Heap.empty
  | step {h h' : Heap} (a : Action) (fuel : Nat) : Reachable allowed h → allowed h a = true →
      step N fuel h a = .ok h' → Reachable allowed h'

/-- A run of calls, each checked by `allowed` before it is made. -/
def run (allowed : Heap → Action → Bool) (fuel : Nat) : Heap → List Action → Except Fault Heap
  | h, [] => pure h
  | h, a :: as =>
    if allowed h a then do
      let h ← step N fuel h a
      run allowed fuel h as
    else throw .assertion

end

theorem Reachable.run {N fuel : Nat} {allowed : Heap → Action → Bool} :
    ∀ {h h' : Heap} {as : List Action}, Reachable N allowed h →
      run N allowed fuel h as = .ok h' → Reachable N allowed h'
  | _, _, [], hr, hok => by cases hok; exact hr
  | _, _, a :: as, hr, hok => by
    simp only [Conman.run] at hok
    split at hok
    · simp only [bind_eq_ok] at hok
      obtain ⟨h2, h2ok, hok⟩ := hok
      exact Reachable.run (hr.step a fuel ‹_› h2ok) hok
    · cases hok

/-! ## Which calls the runs make -/

/-- The links the daemon makes: console to logfile, console to socket, socket to
console. -/
def linkKind : ObjType → ObjType → Bool
  | .console, .logfile | .console, .socket | .socket, .console => true
  | _, _ => false

/-- Links join two distinct live objects of a kind the daemon links; every other call is
admitted. -/
def Action.allowed (h : Heap) : Action → Bool
  | .link src dst _ _ =>
    src != dst && match h.objs src, h.objs dst with
      | some so, some d => linkKind so.type d.type
      | _, _ => false
  | _ => true

/-- As `Action.allowed`, and no link touches an object at EOF. -/
def Action.allowedLive (h : Heap) : Action → Bool
  | .link src dst _ _ =>
    src != dst && match h.objs src, h.objs dst with
      | some so, some d => linkKind so.type d.type && !so.gotEOF && !d.gotEOF
      | _, _ => false
  | _ => true

/-! ## Every cursor stays in the array -/

section
variable {N : Nat} {allowed : Heap → Action → Bool}

theorem createObj_bounded (hN : 0 < N) (name : String) (aux : ObjAux) :
    (createObj name aux).buf.Bounded N := ⟨hN, hN⟩

/-- One call keeps every cursor in the array. -/
theorem step_allBounded (hN : 0 < N) {fuel : Nat} {h h' : Heap} {a : Action}
    (hb : h.AllBounded N) (hok : step N fuel h a = .ok h') : h'.AllBounded N := by
  cases a with
  | createConsole name dev log rst bps =>
    simp only [step, createConsoleObj, map_eq_ok, bind_eq_ok] at hok
    obtain ⟨_, ⟨_, -, _, -, hok⟩, rfl⟩ := hok
    cases hok; exact hb.alloc (createObj_bounded hN _ _)
  | createLogfile name => cases hok; exact hb.alloc (createObj_bounded hN _ _)
  | createSocket user host sd now =>
    simp only [step, createSocketObj, map_eq_ok, bind_eq_ok] at hok
    obtain ⟨_, ⟨_, -, hok⟩, rfl⟩ := hok
    split at hok
    · cases hok
    · cases hok; exact hb.alloc ⟨hN, hN⟩
  | link src dst openFd now => exact createObjLink_allBounded hb hok
  | close obj => exact (closeObj_keeps hok).allBounded hb
  | read obj res now => exact readFromObj_allBounded hb hok
  | write obj kernel => exact writeToObj_allBounded hb hok

/-- Every cursor lies in the array in every reachable state. -/
theorem Reachable.allBounded (hN : 0 < N) {h : Heap} (hr : Reachable N allowed h) :
    h.AllBounded N := by
  induction hr with
  | empty => intro p o hp; cases hp
  | step a fuel _ _ hok ih => exact step_allBounded hN ih hok

/-- **`write_obj_data` never fails its asserts on a live object**: in every reachable
state it takes the first `min(len, N - 1)` bytes into any live object's buffer, whose
cursors stay in the array. -/
theorem Reachable.writeObjData_succeeds (hN : 0 < N) {h : Heap} (hr : Reachable N allowed h)
    {p : Nat} {o : Obj} (ho : h.objs p = some o) (src : List UInt8) {len : Int} (hlen : 0 < len) :
    ∃ b', writeObjData N o.buf src len = .ok (b', clampLen N len) ∧ b'.Bounded N := by
  have hb := hr.allBounded hN p o ho
  obtain ⟨b', hw, -⟩ := Conman.writeObjData_ok N o.buf hb src len hlen
  exact ⟨b', hw, writeObjData_bounded hb hw⟩

theorem console_takes_writes :
    ∃ h, run 8 Action.allowed 2 Heap.empty [.createConsole "c" "/dev/ttyS0" "" "" 9600] = .ok h ∧
      ∃ o, h.objs 0 = some o ∧
        ∃ b', writeObjData 8 o.buf [1, 2, 3] 3 = .ok (b', clampLen 8 3) ∧ b'.Bounded 8 :=
  ⟨_, rfl, _, rfl, @Reachable.writeObjData_succeeds 8 _ (by decide) _ (Reachable.run Reachable.empty
    (show run 8 Action.allowed 2 Heap.empty [.createConsole "c" "/dev/ttyS0" "" "" 9600] = .ok _
      from rfl)) 0 _ rfl [1, 2, 3] 3 (by decide)⟩

end

/-! ## The links are not kept symmetric -/

/-- The graph the links should form: for live `a` and `b`, `a` has writer `b` exactly
when `a` is among `b`'s readers, and then once; and no live object names a freed one. -/
def Heap.Symmetric (h : Heap) : Prop :=
  (∀ a b oa ob, h.objs a = some oa → h.objs b = some ob →
    (oa.writer = some b ↔ a ∈ ob.readers) ∧ ob.readers.count a ≤ 1) ∧
  ∀ a oa, h.objs a = some oa → (∀ w, oa.writer = some w → h.objs w ≠ none) ∧
    ∀ r ∈ oa.readers, h.objs r ≠ none

/-- Client `s1` (2) reads console `c2` (0) and writes console `c` (1), which client `s2`
(3) reads; then `c` is closed. -/
def twoClients : List Action :=
  [.createConsole "c2" "/dev/ttyS2" "" "" 9600, .createConsole "c" "/dev/ttyS1" "" "" 9600,
   .createSocket "s1" "host" 4 1, .createSocket "s2" "host" 5 1,
   .link 0 2 0 "", .link 2 1 0 "", .link 1 3 0 "", .close 1]

/-- **A close breaks the symmetry of the links.** Closing `c` in `twoClients` unlinks it
from its writer `s1` and pops its reader `s2` without clearing `s2`'s writer: `s2` still
names `c` as its writer, though `c` has no readers. -/
theorem close_breaks_link_symmetry (N : Nat) :
    ∃ h, Reachable N Action.allowed h ∧ ¬ h.Symmetric :=
  ⟨_, Reachable.run Reachable.empty
      (show run N Action.allowed 2 Heap.empty twoClients = .ok _ from rfl),
    fun hs => absurd ((hs.1 3 1 _ _ rfl rfl).1.mp rfl) (by decide)⟩

/-- The invariant of the EOF drain: an object at EOF has neither a writer nor readers. -/
def Heap.EOFDetached (h : Heap) : Prop :=
  ∀ p o, h.objs p = some o → o.gotEOF = true → o.writer = none ∧ o.readers = []

/-- Client `s1` (2) reads console `c2` (1) and writes console `c` (0), which clients `s2`
(3) and `s3` (4) read. -/
def sharedConsoleLinks : List Action :=
  [.createConsole "c" "/dev/ttyS1" "" "" 9600, .createConsole "c2" "/dev/ttyS2" "" "" 9600,
   .createSocket "s1" "host" 4 1, .createSocket "s2" "host" 5 1, .createSocket "s3" "host" 6 1,
   .link 1 2 0 "", .link 2 0 0 "", .link 0 3 0 "", .link 0 4 0 ""]

/-- The heap `sharedConsoleLinks` builds; no buffer is written, so it is the same for
every `MAX_BUF_SIZE`. -/
def sharedConsoleHeap : Heap :=
  match run 0 Action.allowedLive 2 Heap.empty sharedConsoleLinks with
  | .ok h => h
  | .error _ => Heap.empty

/-- **An object at EOF keeps a reader.** After `sharedConsoleLinks`, `s1` reads a byte,
which goes into `c`'s buffer, and `c` is closed: its buffer holds data, so `c` is left at
EOF to drain, but the drain loop popped only `s2` and `s3` is still among its
readers. -/
theorem eof_object_keeps_reader (N : Nat) (hN : 2 ≤ N) :
    ∃ h, Reachable N Action.allowedLive h ∧ ¬ h.EOFDetached := by
  have r9 : Reachable N Action.allowedLive sharedConsoleHeap := Reachable.run Reachable.empty
    (show run N Action.allowedLive 2 Heap.empty sharedConsoleLinks = .ok sharedConsoleHeap from rfl)
  let S1 : Obj := { createObj "s1@host" (.socket false 1) with fd := 4, writer := some 1, readers := [0] }
  let C : Obj := { createObj "c" (.console "/dev/ttyS1" .uninitialized .uninitialized 9600) with
    writer := some 2, readers := [3, 4] }
  have hS1 : sharedConsoleHeap.objs 2 = some S1 := rfl
  have hC : sharedConsoleHeap.objs 0 = some C := rfl
  -- the byte read goes into `c`'s empty buffer
  have hd : [(120 : UInt8)].take (N - 1) = [120] := List.take_of_length_le (by simp; omega)
  obtain ⟨b', hw, hin, hout, -⟩ := writeObjData_ok N C.buf ⟨by simp [C, createObj]; omega, by
    simp [C, createObj]; omega⟩ [120] ([(120 : UInt8)].length : Int) (by decide)
  have hL : clampLen N ([(120 : UInt8)].length : Int) = 1 := by rw [clampLen_natCast]; simp; omega
  rw [hL] at hw hin hout
  have hin' : b'.bufIn = 1 := by rw [hin]; exact Nat.mod_eq_of_lt hN
  have hout' : b'.bufOut = 0 := by
    rw [hout, if_neg (by simp [Buf.avail, C, createObj]; omega)]; rfl
  let S1' : Obj := { S1 with aux := S1.aux.touch 1 }
  let H10 := (sharedConsoleHeap.set 2 S1').set 0 { C with buf := b' }
  have hread : step N 2 sharedConsoleHeap (.read 2 (.bytes [120]) 1) = .ok H10 := by
    simp only [step]
    rw [readFromObj_bytes 2 hS1 (by decide) rfl (by decide) (by rw [hd]; simp), hd]
    have hC' : (sharedConsoleHeap.set 2 S1').objs 0 = some C :=
      (Heap.objs_set_ne _ _ (show (0 : Nat) ≠ 2 by decide)).trans hC
    simp only [fanOut, feedReader_eq hC' rfl hw]
    rfl
  -- the close of `c`
  have hS1' : H10.objs 2 = some S1' :=
    (Heap.objs_set_ne _ _ (show (2 : Nat) ≠ 0 by decide)).trans (Heap.objs_set_self _ _ _)
  have hclose := closeObj_eq_of_writer_keeps 1 (Heap.objs_set_self _ 0 { C with buf := b' }) rfl
    hS1' (by decide) (show 0 ∈ S1'.readers by decide) (.inl (by simp [S1', S1]))
    (show ([3, 4] : List Nat).head? ≠ some 0 by decide)
  obtain ⟨H11, hfin, -, hobjs⟩ := closeFinish_eq (Heap.objs_set_self
    ((H10.set 2 { S1' with readers := S1'.readers.erase 0 })) 0
    { C with buf := b', writer := none, readers := [4] })
  refine ⟨H11, ((r9.step (.read 2 (.bytes [120]) 1) 2 rfl hread).step (.close 0) 2 rfl
    (hclose.trans hfin)), fun hdet => ?_⟩
  have h0 : H11.objs 0 = some { C with buf := b', writer := none, readers := [4], gotEOF := true } := by
    rw [hobjs, if_pos rfl, Obj.closed, if_pos (by simp [hin', hout'])]
  exact List.cons_ne_nil 4 [] (hdet 0 _ h0 rfl).2

theorem eof_object_keeps_reader_eight : ∃ h, Reachable 8 Action.allowedLive h ∧ ¬ h.EOFDetached :=
  eof_object_keeps_reader 8 (by decide)

end Conman
