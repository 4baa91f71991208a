/-
The objects of the daemon's graph (`server-obj.c`): consoles, logfiles and client
sockets, each with a descriptor, a circular buffer, at most one object writing into it
and the list of objects it writes to. The graph lives in a heap of objects by address:
`destroy_obj` frees an address, and a pointer left to a freed object dangles.

The heap's frame lemmas (`Heap.objs_set`, `Heap.get_set`) are what every later proof
reads the heap through.
-/
import Conman.Buffer

namespace Conman

/-- A `char *` of `union aux` that `create_obj` leaves uninitialised, until a
constructor assigns it a string of `create_string`. -/
inductive CPtr where
  | uninitialized
  | str (s : String)
deriving DecidableEq, Repr

/-- `if (p) free(p);`: the test reads the pointer, which is undefined when it was never
assigned. -/
def CPtr.free : CPtr → Except Fault Unit
  | .uninitialized => throw .undefined
  | .str _ => pure ()

/-- The payload of `union aux`, which fixes the object's `enum obj_type`. -/
inductive ObjAux where
  | console (dev : String) (log rst : CPtr) (bps : Int)
  | logfile
  | socket (gotIAC : Bool) (timeLastRead : Int)
deriving DecidableEq, Repr

/-- `enum obj_type`. -/
inductive ObjType where
  | console
  | logfile
  | socket
deriving DecidableEq, Repr

def ObjAux.type : ObjAux → ObjType
  | .console .. => .console
  | .logfile => .logfile
  | .socket .. => .socket

/-- `obj_t`. `writer` and `readers` hold addresses; `bufLock` is left out, since the
model runs one call at a time. -/
structure Obj where
  name : String
  fd : Int
  gotEOF : Bool
  buf : Buf
  writer : Option Nat
  readers : List Nat
  aux : ObjAux

/-- `obj->type`. -/
def Obj.type (o : Obj) : ObjType := o.aux.type

/-- The objects allocated so far, by address: `none` at an address never allocated or
freed by `destroy_obj`. `fresh` is the address `malloc` hands out next. -/
structure Heap where
  objs : Nat → Option Obj
  fresh : Nat

namespace Heap

/-- The heap before any object is created. -/
def empty : Heap := ⟨fun _ => none, 0⟩

/-- `*p`: undefined when `p` dangles. -/
def get (h : Heap) (p : Nat) : Except Fault Obj :=
  match h.objs p with
  | some o => pure o
  | none => throw .undefined

/-- `*p` for a pointer that may be NULL. -/
def deref (h : Heap) : Option Nat → Except Fault Obj
  | some p => h.get p
  | none => throw .undefined

/-- Storing `o` at `p`. -/
def set (h : Heap) (p : Nat) (o : Obj) : Heap :=
  { h with objs := fun q => if q = p then some o else h.objs q }

/-- `free(p)`. -/
def free (h : Heap) (p : Nat) : Heap :=
  { h with objs := fun q => if q = p then none else h.objs q }

/-- `malloc`, storing `o` at a fresh address. -/
def alloc (h : Heap) (o : Obj) : Heap × Nat :=
  ({ objs := fun q => if q = h.fresh then some o else h.objs q, fresh := h.fresh + 1 }, h.fresh)

@[simp] theorem objs_set (h : Heap) (p q : Nat) (o : Obj) :
    (h.set p o).objs q = if q = p then some o else h.objs q := rfl

@[simp] theorem objs_free (h : Heap) (p q : Nat) :
    (h.free p).objs q = if q = p then none else h.objs q := rfl

@[simp] theorem fresh_set (h : Heap) (p : Nat) (o : Obj) : (h.set p o).fresh = h.fresh := rfl

@[simp] theorem fresh_free (h : Heap) (p : Nat) : (h.free p).fresh = h.fresh := rfl

theorem get_eq_ok {h : Heap} {p : Nat} {o : Obj} : h.get p = .ok o ↔ h.objs p = some o := by
  unfold get; split <;> simp_all [pure, Except.pure]

@[simp] theorem get_set (h : Heap) (p q : Nat) (o : Obj) :
    (h.set p o).get q = if q = p then pure o else h.get q := by
  unfold get; by_cases hq : q = p <;> simp [hq]

@[simp] theorem set_set (h : Heap) (p : Nat) (o o' : Obj) : (h.set p o).set p o' = h.set p o' := by
  simp only [set, mk.injEq, and_true]; funext q; split <;> rfl

theorem set_self {h : Heap} {p : Nat} {o : Obj} (hp : h.objs p = some o) : h.set p o = h := by
  cases h; simp only [set, mk.injEq, and_true]; funext q; split <;> simp_all

theorem get_of_objs {h : Heap} {p : Nat} {o : Obj} (hp : h.objs p = some o) : h.get p = pure o := by
  simp [get, hp]

theorem get_of_objs_none {h : Heap} {p : Nat} (hp : h.objs p = none) : h.get p = throw .undefined := by
  simp [get, hp]

@[simp] theorem objs_set_self (h : Heap) (p : Nat) (o : Obj) : (h.set p o).objs p = some o := by
  simp

theorem objs_set_ne (h : Heap) {p q : Nat} (o : Obj) (hq : q ≠ p) : (h.set p o).objs q = h.objs q := by
  simp [hq]

theorem objs_free_ne (h : Heap) {p q : Nat} (hq : q ≠ p) : (h.free p).objs q = h.objs q := by
  simp [hq]

theorem ext {h h' : Heap} (ho : ∀ q, h.objs q = h'.objs q) (hf : h.fresh = h'.fresh) : h = h' := by
  cases h; cases h'; cases hf; congr; exact funext ho

/-- The asserts of `write_obj_data` and `write_to_obj` on the cursors hold of every live
object. -/
def AllBounded (N : Nat) (h : Heap) : Prop := ∀ p o, h.objs p = some o → o.buf.Bounded N

section
variable {N : Nat} {h : Heap}

theorem AllBounded.set (hb : h.AllBounded N) {p : Nat} {o : Obj} (ho : o.buf.Bounded N) :
    (h.set p o).AllBounded N := by
  intro q o' hq
  rw [objs_set] at hq
  split at hq
  · cases hq; exact ho
  · exact hb q o' hq

theorem AllBounded.free (hb : h.AllBounded N) (p : Nat) : (h.free p).AllBounded N := by
  intro q o' hq
  rw [objs_free] at hq
  split at hq
  · cases hq
  · exact hb q o' hq

theorem AllBounded.alloc (hb : h.AllBounded N) {o : Obj} (ho : o.buf.Bounded N) :
    (h.alloc o).1.AllBounded N :=
  AllBounded.set hb ho

end

end Heap

/-! ## Creating and destroying objects -/

/-- `create_obj(name, type)`, the fields every variant shares: no descriptor, an empty
buffer, no writer, no readers. The array's bytes are never read before being written;
they are zeros here. -/
def createObj (name : String) (aux : ObjAux) : Obj where
  name := name
  fd := -1
  gotEOF := false
  buf := ⟨fun _ => 0, 0, 0⟩
  writer := none
  readers := []
  aux := aux

/-- `create_console_obj(name, dev, log, rst, bps)`: `log` and `rst` are assigned only
when given non-empty, and are left uninitialised otherwise. -/
def createConsoleObj (h : Heap) (name dev log rst : String) (bps : Int) :
    Except Fault (Heap × Nat) := do
  assertC (name ≠ "")
  assertC (dev ≠ "")
  let log := if log ≠ "" then .str log else .uninitialized
  let rst := if rst ≠ "" then .str rst else .uninitialized
  pure (h.alloc (createObj name (.console dev log rst bps)))

/-- `create_logfile_obj(name)`. -/
def createLogfileObj (h : Heap) (name : String) : Heap × Nat :=
  h.alloc (createObj name .logfile)

/-- `create_socket_obj(user, host, sd)`, created open on the accepted descriptor;
`now` is what `time()` answers. -/
def createSocketObj (h : Heap) (user host : String) (sd : Int) (now : Int) :
    Except Fault (Heap × Nat) := do
  assertC (0 ≤ sd)
  if now = -1 then throw .fatal
  else pure (h.alloc { createObj (user ++ "@" ++ host) (.socket false now) with fd := sd })

/-- The `switch(obj->type)` of `destroy_obj`: a console's `dev`, `log` and `rst` are freed
each under `if (...)`; `dev` is always assigned. -/
def ObjAux.free : ObjAux → Except Fault Unit
  | .console _ log rst _ => do log.free; rst.free
  | .logfile | .socket .. => pure ()

/-- `destroy_obj(obj)`: the buffer must be empty; the descriptor is closed (`close()` is
taken to succeed), the strings of `aux` freed, and the object freed. -/
def destroyObj (h : Heap) (obj : Nat) : Except Fault Heap := do
  let o ← h.get obj
  assertC (o.buf.bufIn = o.buf.bufOut)
  o.aux.free
  pure (h.free obj)

/-- Why `destroy_obj` does not return on `o`: its assert, when the buffer holds data, or
the test of a pointer never assigned. -/
def Obj.destroyFault (o : Obj) : Option Fault :=
  if o.buf.bufIn ≠ o.buf.bufOut then some .assertion
  else match o.aux.free with
    | .error e => some e
    | .ok () => none

/-- Only a console has strings to free. -/
theorem ObjAux.free_of_socket {a : ObjAux} (h : a.type = .socket) : a.free = .ok () := by
  cases a <;> first | rfl | cases h

theorem destroyObj_eq {h : Heap} {p : Nat} {o : Obj} (ho : h.objs p = some o) :
    destroyObj h p = match o.destroyFault with
      | some e => .error e
      | none => .ok (h.free p) := by
  simp only [destroyObj, Heap.get_of_objs ho, pure_bind, Obj.destroyFault]
  by_cases hb : o.buf.bufIn = o.buf.bufOut
  · rw [assertC_of hb, pure_bind, if_neg (not_not.mpr hb)]
    cases o.aux.free <;> rfl
  · rw [if_pos hb]; simp [assertC, hb]; rfl

/-! ## Comparing objects -/

/-- A byte of a name read as the `char` of `compare_objs`, signed as on the compilers the
daemon is built with. -/
def signedChar (b : UInt8) : Int := if b.toNat < 128 then b.toNat else b.toNat - 256

/-- `while (*x && *x == *y) x++, y++; return(*x - *y);` over the characters of two C
strings, the NUL after the last one read as `0`. -/
def strCmp : List Int → List Int → Int
  | [], [] => 0
  | [], y :: _ => 0 - y
  | x :: _, [] => x - 0
  | x :: xs, y :: ys => if x ≠ 0 ∧ x = y then strCmp xs ys else x - y

/-- `compare_objs(obj1, obj2)`: the objects' names compared as C strings. -/
def compareObjs (o1 o2 : Obj) : Int :=
  strCmp ((cBytes o1.name).map signedChar) ((cBytes o2.name).map signedChar)

/-- The C string a list of characters holds: the characters before the first NUL. -/
def cStr (cs : List Int) : List Int := cs.takeWhile (· != 0)

/-- One round of the loop, the end of a string read as its NUL. -/
theorem strCmp_eq (xs ys : List Int) :
    strCmp xs ys = if xs.headD 0 ≠ 0 ∧ xs.headD 0 = ys.headD 0 then strCmp xs.tail ys.tail
      else xs.headD 0 - ys.headD 0 := by
  cases xs <;> cases ys <;> simp only [strCmp, List.headD, List.tail] <;> split_ifs <;> omega

theorem strCmp_swap : ∀ (xs ys : List Int), strCmp ys xs = -strCmp xs ys
  | [], [] => rfl
  | [], _ :: _ | _ :: _, [] => by simp only [strCmp]; omega
  | x :: xs, y :: ys => by
    simp only [strCmp]
    by_cases h : x ≠ 0 ∧ x = y
    · rw [if_pos h, if_pos ⟨h.2 ▸ h.1, h.2.symm⟩, strCmp_swap xs ys]
    · rw [if_neg h, if_neg fun (h' : y ≠ 0 ∧ y = x) => h ⟨h'.2 ▸ h'.1, h'.2.symm⟩]; omega

theorem strCmp_eq_zero_iff : ∀ (xs ys : List Int), strCmp xs ys = 0 ↔ cStr xs = cStr ys
  | [], [] => by simp [strCmp, cStr]
  | [], y :: _ => by by_cases hy : y = 0 <;> simp [strCmp, cStr, hy]
  | x :: _, [] => by by_cases hx : x = 0 <;> simp [strCmp, cStr, hx]
  | x :: xs, y :: ys => by
    simp only [strCmp, cStr, List.takeWhile_cons]
    by_cases h : x ≠ 0 ∧ x = y
    · obtain ⟨hx, rfl⟩ := h
      rw [if_pos ⟨hx, rfl⟩, strCmp_eq_zero_iff xs ys]
      simp [cStr, hx]
    · rw [if_neg h]
      by_cases hx : x = 0 <;> by_cases hy : y = 0 <;> simp [hx, hy]
      exact ⟨fun e => absurd ⟨hx, by omega⟩ h, fun e => absurd ⟨hx, e.1⟩ h⟩

theorem strCmp_trans : ∀ (xs ys zs : List Int), strCmp xs ys < 0 → strCmp ys zs < 0 →
    strCmp xs zs < 0
  | [], ys, zs, h1, h2 => by
    rw [strCmp_eq] at h1 h2 ⊢
    simp only [List.headD_nil, ne_eq, not_true_eq_false, false_and, if_false] at h1 ⊢
    split_ifs at h2 <;> omega
  | x :: xs, ys, zs, h1, h2 => by
    rw [strCmp_eq] at h1 h2 ⊢
    simp only [List.headD_cons, List.tail_cons] at h1 h2 ⊢
    split_ifs at h1 h2 ⊢ with ha hb hc hc hb hc hc <;> try omega
    exact strCmp_trans xs ys.tail zs.tail h1 h2

/-- **`compare_objs` orders objects by name.** Swapping its arguments negates the answer,
it answers 0 exactly when the names are the same C string, and it is transitive: a
consistent comparator for sorting and searching the objects. -/
theorem compareObjs_order (o1 o2 o3 : Obj) :
    compareObjs o2 o1 = -compareObjs o1 o2 ∧
    (compareObjs o1 o2 = 0 ↔
      cStr ((cBytes o1.name).map signedChar) = cStr ((cBytes o2.name).map signedChar)) ∧
    (compareObjs o1 o2 < 0 → compareObjs o2 o3 < 0 → compareObjs o1 o3 < 0) :=
  ⟨strCmp_swap _ _, strCmp_eq_zero_iff _ _, strCmp_trans _ _ _⟩

end Conman
