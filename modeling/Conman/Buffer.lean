/-
The circular buffer every object carries (`server-obj.c`): the array
`buf[MAX_BUF_SIZE]` with its two cursors, and `write_obj_data`, the producer that
never blocks and drops the oldest bytes instead.

The buffer is empty when the cursors meet, so it holds at most `MAX_BUF_SIZE - 1`
bytes. `write_obj_data` reckons the free space `avail` one byte too high whenever
the buffer is not empty (`Buf.avail_eq`). Off one boundary it is the bounded
drop-oldest enqueue `enqueueDropOldest` (`writeObjData_contents`); on it, a write
that exactly fills the buffer leaves the cursors equal, and everything buffered is
lost (`writeObjData_fill_loses_all`).

`MAX_BUF_SIZE` is defined in a header that is not among the sources: it is the
parameter `N` throughout.
-/
import Mathlib.Data.List.Basic
import Mathlib.Data.List.GetD

namespace Conman

/-- How a call of the daemon ends when it does not return. -/
inductive Fault where
  /-- An `assert` of the source fails and the daemon aborts. -/
  | assertion
  /-- `err_msg` reports a fatal error and the daemon exits. -/
  | fatal
  /-- The C code has undefined behaviour: it reads a local or a field no statement
  assigned, follows a NULL pointer or uses an object `destroy_obj` freed. -/
  | undefined
  /-- The model's recursion bound ran out. -/
  | fuel
deriving DecidableEq, Repr

/-- `assert(p)`. -/
def assertC (p : Prop) [Decidable p] : Except Fault Unit :=
  if p then pure () else throw .assertion

@[simp] theorem assertC_of {p : Prop} [Decidable p] (h : p) : assertC p = pure () := by
  simp [assertC, h]

theorem assertC_eq_ok {p : Prop} [Decidable p] {u : Unit} : assertC p = .ok u ↔ p := by
  unfold assertC; split <;> simp_all [pure, Except.pure, throw, throwThe, MonadExceptOf.throw]

theorem map_eq_ok {ε α β : Type} {f : α → β} {x : Except ε α} {y : β} :
    f <$> x = .ok y ↔ ∃ a, x = .ok a ∧ f a = y := by
  cases x <;> simp [Functor.map, Except.map]

theorem bind_eq_ok {ε α β : Type} {x : Except ε α} {f : α → Except ε β} {y : β} :
    x >>= f = .ok y ↔ ∃ a, x = .ok a ∧ f a = .ok y := by
  cases x <;> simp [bind, Except.bind]

/-- A C string as the bytes it holds; each character stands for one byte. -/
def cBytes (s : String) : List UInt8 := s.toList.map fun c => c.toNat.toUInt8

section
variable (N : Nat)

/-- An object's circular buffer: the array and the offsets of `bufInPtr` (where the
next byte goes) and `bufOutPtr` (the oldest byte). -/
structure Buf where
  data : Nat → UInt8
  bufIn : Nat
  bufOut : Nat

/-- The asserts of `write_obj_data` and `write_to_obj`: both cursors lie in the array. -/
def Buf.Bounded (b : Buf) : Prop := b.bufIn < N ∧ b.bufOut < N

instance (b : Buf) : Decidable (b.Bounded N) := inferInstanceAs (Decidable (_ ∧ _))

/-- The number of bytes buffered, from `bufOutPtr` round to `bufInPtr`. -/
def Buf.count (b : Buf) : Nat :=
  if b.bufOut ≤ b.bufIn then b.bufIn - b.bufOut else b.bufIn + N - b.bufOut

/-- The bytes buffered, oldest first. -/
def Buf.contents (b : Buf) : List UInt8 :=
  (List.range (b.count N)).map fun i => b.data ((b.bufOut + i) % N)

/-- `avail` of `write_obj_data`, "the number of bytes available before data is
overwritten". -/
def Buf.avail (b : Buf) : Nat :=
  if b.bufOut = b.bufIn then N - 1
  else if b.bufOut > b.bufIn then b.bufOut - b.bufIn
  else (N - b.bufIn) + b.bufOut

/-- `if (len >= MAX_BUF_SIZE) len = MAX_BUF_SIZE - 1;`, for a positive `len`. -/
def clampLen (len : Int) : Nat := if N ≤ len then N - 1 else len.toNat

/-- `memcpy(&buf[pos], src, n)`. -/
def copyIn (data : Nat → UInt8) (pos : Nat) (src : List UInt8) (n : Nat) : Nat → UInt8 :=
  fun j => if pos ≤ j ∧ j < pos + n then src.getD (j - pos) 0 else data j

/-- The first chunk of `write_obj_data`: `m` bytes at `bufInPtr`, which wraps to the
start when it reaches the end of the array. -/
def Buf.copyFirst (b : Buf) (src : List UInt8) (m : Nat) : Buf :=
  if 0 < m then
    { b with data := copyIn b.data b.bufIn src m
             bufIn := if b.bufIn + m = N then 0 else b.bufIn + m }
  else b

/-- The second chunk of `write_obj_data`: the `n` bytes left, from the start. -/
def Buf.copySecond (b : Buf) (src : List UInt8) (n : Nat) : Buf :=
  if 0 < n then { b with data := copyIn b.data b.bufIn src n, bufIn := b.bufIn + n } else b

/-- `write_obj_data(obj, src, len)`: the buffer afterwards and the count returned. When
`len` exceeds `avail`, `bufOutPtr` moves to just after `bufInPtr`. The callers pass
`len = |src|`; the `log_msg` of an overrun is not modelled. -/
def writeObjData (b : Buf) (src : List UInt8) (len : Int) : Except Fault (Buf × Int) :=
  if len ≤ 0 then pure (b, 0) else do
  let len := clampLen N len
  assertC (b.Bounded N)
  let avail := b.avail N
  let m := min len (N - b.bufIn)
  let b := (b.copyFirst N src m).copySecond (src.drop m) (len - m)
  let b := if avail < len then { b with bufOut := if b.bufIn + 1 = N then 0 else b.bufIn + 1 }
    else b
  assertC (b.Bounded N)
  pure (b, len)

/-- The buffer `write_obj_data` leaves after writing `src` into the empty buffer `b` whose
cursors are at the start of the array: the first `MAX_BUF_SIZE - 1` bytes of `src`. -/
def Buf.fill (b : Buf) (src : List UInt8) : Buf :=
  { b with data := copyIn b.data 0 src (min src.length (N - 1)), bufIn := min src.length (N - 1),
           bufOut := 0 }

end

/-- What the buffer is for: a queue of at most `cap` bytes that never refuses bytes
and drops its oldest ones to make room. -/
def enqueueDropOldest (cap : Nat) (q d : List UInt8) : List UInt8 :=
  (q ++ d).drop (q.length + d.length - cap)

/-! ## Positions round the array -/

theorem mod_of_lt_two {N p : Nat} (h : p < 2 * N) : p % N = if p < N then p else p - N := by
  split
  · exact Nat.mod_eq_of_lt ‹_›
  · rw [Nat.mod_eq_sub_mod (by omega), Nat.mod_eq_of_lt (by omega)]

/-! ## The buffer's contents -/

@[simp] theorem Buf.length_contents (N : Nat) (b : Buf) :
    (b.contents N).length = b.count N := by
  simp [Buf.contents]

theorem Buf.getElem_contents (N : Nat) (b : Buf) (i : Nat) (h : i < (b.contents N).length) :
    (b.contents N)[i] = b.data ((b.bufOut + i) % N) := by
  simp [Buf.contents]

section
variable {N : Nat} {b : Buf}

theorem Buf.count_lt (hb : b.Bounded N) : b.count N < N := by
  obtain ⟨hi, ho⟩ := hb; unfold Buf.count; split_ifs <;> omega

theorem Buf.count_eq_zero (hb : b.Bounded N) : b.count N = 0 ↔ b.bufIn = b.bufOut := by
  obtain ⟨hi, ho⟩ := hb; unfold Buf.count; split_ifs <;> omega

/-- `avail` is the free space `N - 1 - count` only for an empty buffer; otherwise it is
one more. -/
theorem Buf.avail_eq (hb : b.Bounded N) :
    b.avail N = if b.count N = 0 then N - 1 else N - b.count N := by
  obtain ⟨hi, ho⟩ := hb; unfold Buf.avail Buf.count; split_ifs <;> omega

theorem Buf.bufIn_eq (hb : b.Bounded N) : b.bufIn = (b.bufOut + b.count N) % N := by
  obtain ⟨hi, ho⟩ := hb
  unfold Buf.count; rw [mod_of_lt_two (by split <;> omega)]; split_ifs <;> omega

end

/-! ## `write_obj_data` -/

theorem clampLen_lt {N : Nat} (hN : 0 < N) (len : Int) : clampLen N len < N := by
  unfold clampLen; split <;> omega

/-- The callers' `len`, the length of the data: at most `MAX_BUF_SIZE - 1` is taken. -/
@[simp] theorem clampLen_natCast (N n : Nat) : clampLen N n = min n (N - 1) := by
  unfold clampLen; split <;> omega

@[simp] theorem copyIn_zero (data : Nat → UInt8) (pos : Nat) (src : List UInt8) :
    copyIn data pos src 0 = data := by
  funext j; simp [copyIn]

section
variable (N : Nat) (b : Buf) (src : List UInt8)

@[simp] theorem Buf.copyFirst_bufOut (m : Nat) : (b.copyFirst N src m).bufOut = b.bufOut := by
  unfold Buf.copyFirst; split <;> rfl

@[simp] theorem Buf.copySecond_bufOut (n : Nat) : (b.copySecond src n).bufOut = b.bufOut := by
  unfold Buf.copySecond; split <;> rfl

@[simp] theorem Buf.copyFirst_data (m : Nat) :
    (b.copyFirst N src m).data = copyIn b.data b.bufIn src m := by
  unfold Buf.copyFirst; split <;> simp_all

@[simp] theorem Buf.copySecond_data (n : Nat) :
    (b.copySecond src n).data = copyIn b.data b.bufIn src n := by
  unfold Buf.copySecond; split <;> simp_all

@[simp] theorem Buf.copyFirst_bufIn (m : Nat) :
    (b.copyFirst N src m).bufIn = if 0 < m ∧ b.bufIn + m = N then 0 else b.bufIn + m := by
  unfold Buf.copyFirst; split <;> simp_all

@[simp] theorem Buf.copySecond_bufIn (n : Nat) : (b.copySecond src n).bufIn = b.bufIn + n := by
  unfold Buf.copySecond; split <;> simp_all

end

/-- The spec lemma of `write_obj_data` for a positive `len`: the two copies together
write the first `L` bytes of `src` round the array from `bufInPtr`, which moves `L`
on; `bufOutPtr` moves to just after it when `L` exceeds `avail`. -/
theorem writeObjData_ok (N : Nat) (b : Buf) (hb : b.Bounded N) (src : List UInt8) (len : Int)
    (hlen : 0 < len) :
    ∃ b', writeObjData N b src len = .ok (b', clampLen N len) ∧
      b'.bufIn = (b.bufIn + clampLen N len) % N ∧
      b'.bufOut = (if b.avail N < clampLen N len then (b'.bufIn + 1) % N else b.bufOut) ∧
      ∀ t < N, b'.data ((b.bufIn + t) % N) =
        if t < clampLen N len then src.getD t 0 else b.data ((b.bufIn + t) % N) := by
  obtain ⟨hi, ho⟩ := hb
  have hL := clampLen_lt (by omega : 0 < N) len
  set L := clampLen N len with hLdef
  set b2 := (b.copyFirst N src (min L (N - b.bufIn))).copySecond (src.drop (min L (N - b.bufIn)))
    (L - min L (N - b.bufIn)) with hb2
  have hin : b2.bufIn = (b.bufIn + L) % N := by
    rw [mod_of_lt_two (by omega)]
    simp only [hb2, Buf.copyFirst_bufIn, Buf.copySecond_bufIn]; split_ifs <;> omega
  have hdata : ∀ t < N, b2.data ((b.bufIn + t) % N) =
      if t < L then src.getD t 0 else b.data ((b.bufIn + t) % N) := by
    intro t ht
    rw [mod_of_lt_two (by omega)]
    simp only [hb2, Buf.copyFirst_data, Buf.copySecond_data, Buf.copyFirst_bufIn, copyIn,
      List.getD_eq_getElem?_getD, List.getElem?_drop]
    split_ifs <;> first | rfl | (congr 3; omega)
  set b3 : Buf := if b.avail N < L then
      { b2 with bufOut := if b2.bufIn + 1 = N then 0 else b2.bufIn + 1 } else b2 with hb3
  have hin3 : b3.bufIn = (b.bufIn + L) % N := by rw [hb3]; split <;> exact hin
  have hin3' : b3.bufIn < N := hin3 ▸ Nat.mod_lt _ (by omega)
  have hout3 : b3.bufOut = if b.avail N < L then (b3.bufIn + 1) % N else b.bufOut := by
    have hin2 : b2.bufIn < N := hin ▸ Nat.mod_lt _ (by omega)
    rw [hin3, ← hin]
    by_cases hav : b.avail N < L
    · simp only [hb3, if_pos hav]
      rw [mod_of_lt_two (by omega)]; split_ifs <;> omega
    · simp [hb3, if_neg hav, hb2]
  have hbd : b3.Bounded N :=
    ⟨hin3', by rw [hout3]; split; exacts [Nat.mod_lt _ (by omega), ho]⟩
  refine ⟨b3, ?_, hin3, hout3, fun t ht => by rw [hb3]; split <;> exact hdata t ht⟩
  have hb : b.Bounded N := ⟨hi, ho⟩
  simp only [writeObjData, if_neg (show ¬ len ≤ 0 by omega), ← hLdef, assertC_of hb, ← hb2, ← hb3,
    assertC_of hbd]
  rfl

/-- A write into an empty buffer whose cursors are at the start of the array. -/
theorem writeObjData_fill {N : Nat} (hN : 0 < N) {b : Buf} (hin : b.bufIn = 0) (hout : b.bufOut = 0)
    {src : List UInt8} (hsrc : src ≠ []) :
    writeObjData N b src src.length = .ok (b.fill N src, ((min src.length (N - 1) : Nat) : Int)) := by
  have hlen : 0 < src.length := List.length_pos.mpr hsrc
  have hL : min src.length (N - 1) < N := by omega
  simp only [writeObjData, if_neg (show ¬ (src.length : Int) ≤ 0 by omega), clampLen_natCast,
    assertC_of (show b.Bounded N from ⟨by omega, by omega⟩), pure_bind, Buf.avail, hin, hout,
    if_true, Nat.sub_zero, min_eq_left hL.le, Nat.sub_self]
  rw [if_neg (by omega)]
  have hfill : (b.copyFirst N src (min src.length (N - 1))).copySecond
      (src.drop (min src.length (N - 1))) 0 = b.fill N src := by
    obtain ⟨d, i, o⟩ := b
    simp only at hin hout; subst hin hout
    have hN' : ¬min src.length (N - 1) = N := by omega
    simp only [Buf.copySecond, Buf.copyFirst, Buf.fill, lt_irrefl, if_false, Nat.zero_add, hN']
    split_ifs with h0
    · rfl
    · rw [show min src.length (N - 1) = 0 by omega, copyIn_zero]
  rw [hfill, assertC_of (show (b.fill N src).Bounded N from ⟨hL, hN⟩)]
  rfl

theorem Buf.getElem?_contents (N : Nat) (b : Buf) (i : Nat) :
    (b.contents N)[i]? = if i < b.count N then some (b.data ((b.bufOut + i) % N)) else none := by
  unfold Buf.contents; split <;> simp_all

theorem getElem?_enqueueDropOldest (cap : Nat) (q d : List UInt8) (i : Nat) :
    (enqueueDropOldest cap q d)[i]? = (q ++ d)[q.length + d.length - cap + i]? := by
  simp [enqueueDropOldest]

/-- `bufInPtr` lies `k` bytes after `bufOutPtr`: the buffer holds `k` bytes. -/
theorem Buf.count_of_bufIn_eq {N k : Nat} {b : Buf} (ho : b.bufOut < N) (hk : k < N)
    (h : b.bufIn = (b.bufOut + k) % N) : b.count N = k := by
  unfold Buf.count; rw [h, mod_of_lt_two (by omega)]; split_ifs <;> omega

/-- Whatever `write_obj_data` returns has passed its last asserts: both cursors lie in
the array. -/
theorem writeObjData_bounded {N : Nat} {b b' : Buf} {src : List UInt8} {len L : Int}
    (hb : b.Bounded N) (hok : writeObjData N b src len = .ok (b', L)) : b'.Bounded N := by
  unfold writeObjData at hok
  split at hok
  · cases hok; exact hb
  · simp only [bind_eq_ok] at hok
    obtain ⟨_, -, _, hb', hok⟩ := hok
    cases hok; exact assertC_eq_ok.mp hb'

/-- **`write_obj_data` is the bounded drop-oldest enqueue**, except when the buffer is not
empty and the write fills it exactly: the contents afterwards are the old contents and
the `L` bytes accepted, less the oldest bytes beyond `N - 1`. -/
theorem writeObjData_contents (N : Nat) (b : Buf) (hb : b.Bounded N) (d : List UInt8)
    (hd : d ≠ []) (hfit : b.count N = 0 ∨ b.count N + min d.length (N - 1) ≠ N) :
    ∃ b', writeObjData N b d d.length = .ok (b', ((min d.length (N - 1) : Nat) : Int)) ∧
      b'.Bounded N ∧ b'.contents N = enqueueDropOldest (N - 1) (b.contents N) (d.take (N - 1)) := by
  have hlen : (0 : Int) < d.length := by have := List.length_pos.mpr hd; omega
  obtain ⟨b', hw, hin, hout, hdata⟩ := writeObjData_ok N b hb d d.length hlen
  rw [clampLen_natCast] at hw hin hout hdata
  have hc := Buf.count_lt hb
  have hav := Buf.avail_eq hb
  have hin0 := Buf.bufIn_eq hb
  obtain ⟨hi, ho⟩ := hb
  have hN : 0 < N := by omega
  have hb'out : b'.bufOut < N := by rw [hout]; split; exacts [Nat.mod_lt _ hN, ho]
  refine ⟨b', hw, ⟨hin ▸ Nat.mod_lt _ hN, hb'out⟩, ?_⟩
  generalize hcb : b.count N = c at *
  generalize hLdef : min d.length (N - 1) = L at *
  have hLd : L ≤ d.length := by omega
  have hLN : L ≤ N - 1 := by omega
  have hLt : (d.take (N - 1)).length = L := by rw [List.length_take, Nat.min_comm, hLdef]
  have hcL : c + L < N ∨ N < c + L := by omega
  rw [if_congr (show Buf.avail N b < L ↔ N < c + L by rw [hav]; split <;> omega) rfl rfl] at hout
  clear hfit hLdef hav hw hlen
  -- the write pushes the oldest `s` bytes out
  generalize hs : c + L - (N - 1) = s
  have hstart : b'.bufOut = (b.bufOut + s) % N := by
    rw [hout]; split
    · rw [hin, hin0, Nat.mod_add_mod, Nat.add_assoc, Nat.mod_add_mod,
        show b.bufOut + c + (L + 1) = b.bufOut + s + N by omega, Nat.add_mod_right]
    · rw [show s = 0 by omega, Nat.add_zero, Nat.mod_eq_of_lt ho]
  have hcount : b'.count N = c + L - s := by
    refine Buf.count_of_bufIn_eq hb'out (by omega) ?_
    rw [hin, hin0, hstart, Nat.mod_add_mod, Nat.mod_add_mod, Nat.add_assoc, Nat.add_assoc,
      show s + (c + L - s) = c + L by omega]
  apply List.ext_getElem?; intro i
  rw [Buf.getElem?_contents, hcount, getElem?_enqueueDropOldest, Buf.length_contents,
    hLt, hcb, hs, hstart, Nat.mod_add_mod, Nat.add_assoc]
  split
  case isFalse hi' =>
    exact (List.getElem?_eq_none (by rw [List.length_append, Buf.length_contents, hcb, hLt]; omega)).symm
  case isTrue hi' =>
    by_cases hj : s + i < c
    · -- an old byte the write did not reach
      rw [List.getElem?_append_left (by rw [Buf.length_contents, hcb]; omega), Buf.getElem?_contents]
      have := hdata (s + i + N - c) (by omega)
      rw [if_neg (by omega), hin0, Nat.mod_add_mod,
        show b.bufOut + c + (s + i + N - c) = b.bufOut + (s + i) + N by omega,
        Nat.add_mod_right] at this
      rw [this, hcb, if_pos hj]
    · -- a byte of the write
      rw [List.getElem?_append_right (by rw [Buf.length_contents, hcb]; omega), Buf.length_contents, hcb,
        List.getElem?_take, if_pos (by omega), List.getElem?_eq_getElem (by omega)]
      have := hdata (s + i - c) (by omega)
      rw [if_pos (by omega), hin0, Nat.mod_add_mod,
        show b.bufOut + c + (s + i - c) = b.bufOut + (s + i) by omega] at this
      rw [this, List.getD_eq_getElem]

/-- A write into a non-empty buffer that fills it exactly leaves `bufInPtr` on
`bufOutPtr`: the buffer reads as empty and every byte it held is lost. -/
theorem writeObjData_fill_loses_all (N : Nat) (b : Buf) (hb : b.Bounded N) (d : List UInt8)
    (hd : d ≠ []) (hc : 0 < b.count N) (hfill : b.count N + min d.length (N - 1) = N) :
    ∃ b', writeObjData N b d d.length = .ok (b', ((min d.length (N - 1) : Nat) : Int)) ∧
      b'.contents N = [] := by
  have hlen : (0 : Int) < d.length := by have := List.length_pos.mpr hd; omega
  obtain ⟨b', hw, hin, hout, -⟩ := writeObjData_ok N b hb d d.length hlen
  rw [clampLen_natCast] at hw hin hout
  have hav := Buf.avail_eq hb
  have hin0 := Buf.bufIn_eq hb
  obtain ⟨hi, ho⟩ := hb
  refine ⟨b', hw, ?_⟩
  have hout' : b'.bufOut = b.bufOut := by rw [hout, if_neg (by rw [hav]; split <;> omega)]
  have hin' : b'.bufIn = b.bufOut := by
    rw [hin, hin0, Nat.mod_add_mod, Nat.add_assoc, hfill, Nat.add_mod_right, Nat.mod_eq_of_lt ho]
  have hcount : b'.count N = 0 := by
    unfold Buf.count; rw [hout', hin']; simp
  simp [Buf.contents, hcount]

/-- The spec's size-8 buffer holding `ABCDEFG`: writing one more byte empties it. -/
theorem seven_then_one_empties :
    ∃ b', writeObjData 8 ⟨fun i => (cBytes "ABCDEFG").getD i 0, 7, 0⟩ (cBytes "H")
        (cBytes "H").length = .ok (b', ((min (cBytes "H").length (8 - 1) : Nat) : Int)) ∧
      b'.contents 8 = [] :=
  writeObjData_fill_loses_all 8 _ (by decide) _ (by decide) (by decide) (by decide)

end Conman
