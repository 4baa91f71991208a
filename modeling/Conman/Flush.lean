/-
`write_to_obj` (`server-obj.c`), the consumer of an object's buffer: it hands `write()`
the bytes from `bufOutPtr` up to `bufInPtr`, or up to the end of the array when the
data wraps, and moves `bufOutPtr` past what the kernel accepted.

The bytes handed over are the first `min(count, N - bufOutPtr)` bytes of the contents
(`Buf.pending_eq`); after `n` of them are accepted the contents are the old ones less
their first `n` (`Buf.contents_advance`), so bytes leave in order, and two fully
accepted writes empty any buffer (`Buf.two_flushes_empty`). An object that reached EOF
is closed once its buffer is empty (`writeToObj_spec`).
-/
import Conman.Close

namespace Conman

section
variable (N : Nat)

/-- `avail` of `write_to_obj`: the contiguous run from `bufOutPtr`, to `bufInPtr` or to
the end of the array. -/
def Buf.run (b : Buf) : Nat :=
  if b.bufOut ≤ b.bufIn then b.bufIn - b.bufOut else N - b.bufOut

/-- The bytes `write(obj->fd, obj->bufOutPtr, avail)` is handed. -/
def Buf.pending (b : Buf) : List UInt8 :=
  (List.range (b.run N)).map fun i => b.data (b.bufOut + i)

/-- `obj->bufOutPtr += n`, with the wrap at the end of the array. -/
def Buf.advance (b : Buf) (n : Nat) : Buf :=
  { b with bufOut := if b.bufOut + n = N then 0 else b.bufOut + n }

/-- What `write()` answers once `goto again` has retried every EINTR. -/
inductive WriteOutcome where
  /-- The kernel accepted `n` bytes. -/
  | wrote (n : Nat)
  /-- EPIPE: the peer is gone. -/
  | epipe
  /-- EAGAIN or EWOULDBLOCK: nothing written. -/
  | again
  /-- Any other errno: `err_msg` exits. -/
  | failed
deriving DecidableEq, Repr

/-- The object after the kernel's answer: EPIPE sets `gotEOF` and flushes the buffer. -/
def afterWrite (o : Obj) : WriteOutcome → Except Fault Obj
  | .wrote n => pure (if 0 < n then { o with buf := o.buf.advance N n } else o)
  | .epipe => pure { o with gotEOF := true, buf := { o.buf with bufIn := 0, bufOut := 0 } }
  | .again => pure o
  | .failed => throw .fatal

/-- `if (avail > 0)`: `write()` is called only on a run that is not empty; `kernel` is
what it answers for the bytes it is handed. -/
def flushRun (o : Obj) (kernel : List UInt8 → WriteOutcome) : Except Fault Obj :=
  if 0 < o.buf.run N then afterWrite N o (kernel (o.buf.pending N)) else pure o

/-- `write_to_obj(obj)`; `fuel` bounds the `close_obj` made once a buffer at EOF is
empty. -/
def writeToObj (fuel : Nat) (h : Heap) (obj : Nat) (kernel : List UInt8 → WriteOutcome) :
    Except Fault Heap := do
  let o ← h.get obj
  assertC (0 ≤ o.fd)
  assertC (o.buf.Bounded N)
  let o ← flushRun N o kernel
  assertC (o.buf.bufOut < N)
  let h := h.set obj o
  if o.gotEOF ∧ o.buf.bufIn = o.buf.bufOut then closeObj fuel h obj else pure h

end

/-! ## The consumer side of the buffer -/

section
variable {N : Nat} {b : Buf}

theorem Buf.run_eq (hb : b.Bounded N) : b.run N = min (b.count N) (N - b.bufOut) := by
  obtain ⟨hi, ho⟩ := hb; unfold Buf.run Buf.count; split_ifs <;> omega

theorem Buf.run_pos_iff (hb : b.Bounded N) : 0 < b.run N ↔ b.contents N ≠ [] := by
  rw [Ne, ← List.length_eq_zero, Buf.length_contents, Buf.count_eq_zero hb]
  obtain ⟨hi, ho⟩ := hb; unfold Buf.run; split_ifs <;> omega

/-- **`write()` is handed the oldest bytes**: the first `min(count, N - bufOutPtr)`. -/
theorem Buf.pending_eq (hb : b.Bounded N) :
    b.pending N = (b.contents N).take (min (b.count N) (N - b.bufOut)) := by
  rw [← Buf.run_eq hb]
  apply List.ext_getElem?; intro i
  have hrun : b.run N ≤ b.count N := by rw [Buf.run_eq hb]; exact Nat.min_le_left _ _
  have hrun' : b.run N ≤ N - b.bufOut := by rw [Buf.run_eq hb]; exact Nat.min_le_right _ _
  rw [List.getElem?_take, Buf.getElem?_contents]
  unfold Buf.pending
  by_cases hi : i < b.run N
  · rw [if_pos hi, if_pos (by omega), Nat.mod_eq_of_lt (by omega)]; simp [hi]
  · rw [if_neg hi]; simp; omega

theorem Buf.advance_bounded (hb : b.Bounded N) {n : Nat} (hn : n ≤ b.run N) :
    (b.advance N n).Bounded N := by
  obtain ⟨hi, ho⟩ := hb; unfold Buf.run at hn
  exact ⟨hi, by unfold Buf.advance; split_ifs at hn ⊢ <;> simp only <;> omega⟩

theorem Buf.count_advance (hb : b.Bounded N) {n : Nat} (hn : n ≤ b.run N) :
    (b.advance N n).count N = b.count N - n := by
  obtain ⟨hi, ho⟩ := hb; unfold Buf.run at hn; unfold Buf.count Buf.advance
  split_ifs at hn ⊢ <;> simp only at * <;> omega

/-- **Bytes leave in order**: after `write()` accepts `n` of the bytes it is handed, the
contents are the old contents less their first `n`. -/
theorem Buf.contents_advance (hb : b.Bounded N) {n : Nat} (hn : n ≤ b.run N) :
    (b.advance N n).contents N = (b.contents N).drop n := by
  have hout : (b.advance N n).bufOut % N = (b.bufOut + n) % N := by
    obtain ⟨hi, ho⟩ := hb; unfold Buf.run at hn; unfold Buf.advance
    split_ifs with h
    · simp only; rw [h, Nat.mod_self, Nat.zero_mod]
    · rfl
  apply List.ext_getElem?; intro i
  rw [Buf.getElem?_contents, List.getElem?_drop, Buf.getElem?_contents, Buf.count_advance hb hn]
  have hrun : b.run N ≤ b.count N := by rw [Buf.run_eq hb]; exact Nat.min_le_left _ _
  by_cases hi : i < b.count N - n
  · rw [if_pos hi, if_pos (by omega), ← Nat.mod_add_mod, hout, Nat.mod_add_mod, Nat.add_assoc]
    rfl
  · rw [if_neg hi, if_neg (by omega)]

/-- **Two fully accepted writes empty any buffer**: the first takes the run up to
`bufInPtr` or to the end of the array, the second the part that wrapped. -/
theorem Buf.two_flushes_empty (hb : b.Bounded N) :
    ((b.advance N (b.run N)).advance N ((b.advance N (b.run N)).run N)).count N = 0 := by
  have hb1 := Buf.advance_bounded hb (le_refl _)
  rw [Buf.count_advance hb1 (le_refl _), Buf.count_advance hb (le_refl _), Buf.run_eq hb1,
    Buf.count_advance hb (le_refl _)]
  obtain ⟨hi, ho⟩ := hb
  unfold Buf.advance Buf.run Buf.count
  split_ifs <;> simp only at * <;> omega

end

/-! ## `write_to_obj` -/

theorem Buf.in_eq_out_iff {N : Nat} {b : Buf} (hb : b.Bounded N) :
    b.bufIn = b.bufOut ↔ b.contents N = [] := by
  rw [← List.length_eq_zero, Buf.length_contents, Buf.count_eq_zero hb]

/-- The kernel is asked about the first `min(count, N - bufOutPtr)` bytes of the
contents, and only when there are any. -/
theorem flushRun_eq (N : Nat) {o : Obj} (kernel : List UInt8 → WriteOutcome)
    (hb : o.buf.Bounded N) :
    flushRun N o kernel = if o.buf.contents N ≠ [] then
      afterWrite N o (kernel ((o.buf.contents N).take (min (o.buf.count N) (N - o.buf.bufOut))))
      else pure o := by
  rw [flushRun, if_congr (Buf.run_pos_iff hb) rfl rfl, Buf.pending_eq hb]

/-- Once the kernel has answered, `write_to_obj` closes the object exactly when it is at
EOF with an empty buffer. -/
theorem writeToObj_finish (N fuel : Nat) {h : Heap} {obj : Nat} {o o' : Obj}
    (kernel : List UInt8 → WriteOutcome) (ho : h.objs obj = some o) (hfd : 0 ≤ o.fd)
    (hb : o.buf.Bounded N) (ho' : flushRun N o kernel = .ok o') (hb' : o'.buf.Bounded N) :
    writeToObj N fuel h obj kernel =
      if o'.gotEOF ∧ o'.buf.contents N = [] then closeObj fuel (h.set obj o') obj
      else .ok (h.set obj o') := by
  simp only [writeToObj, Heap.get_of_objs ho, assertC_of hfd, assertC_of hb, pure_bind, ho']
  rw [show (Except.ok o' : Except Fault Obj) = pure o' from rfl, pure_bind, assertC_of hb'.2, pure_bind,
    if_congr (and_congr_right fun _ => Buf.in_eq_out_iff hb') rfl rfl]
  rfl

/-- **`write_to_obj` flushes in order.** For an open object whose cursors lie in the
array, with contents `c` and `k = min(|c|, N - bufOutPtr)`, and a kernel that never
reports more bytes written than it was handed: `k > 0` exactly when `c` is not empty;
an empty buffer is not written and is closed if at EOF; otherwise the kernel is handed
the first `k` bytes of `c`, and when it accepts `n` of them the contents become `c`
less its first `n` with both cursors in the array, on EPIPE they become empty with
`gotEOF` set and the object is closed, on EAGAIN nothing changes, and any other error is
fatal; `close_obj` follows exactly when `gotEOF` is set and the contents are then empty.
Two fully accepted writes empty any buffer. -/
theorem writeToObj_spec (N fuel : Nat) {h : Heap} {obj : Nat} {o : Obj}
    (kernel : List UInt8 → WriteOutcome) (ho : h.objs obj = some o) (hfd : 0 ≤ o.fd)
    (hb : o.buf.Bounded N)
    (hk : ∀ n, kernel ((o.buf.contents N).take (min (o.buf.count N) (N - o.buf.bufOut))) = .wrote n →
      n ≤ min (o.buf.count N) (N - o.buf.bufOut)) :
    let c := o.buf.contents N
    let k := min (o.buf.count N) (N - o.buf.bufOut)
    (0 < k ↔ c ≠ []) ∧
    (c = [] → writeToObj N fuel h obj kernel =
      if o.gotEOF then closeObj fuel (h.set obj o) obj else .ok (h.set obj o)) ∧
    (c ≠ [] → ∀ n, kernel (c.take k) = .wrote n → ∃ o',
      writeToObj N fuel h obj kernel =
        (if o'.gotEOF ∧ o'.buf.contents N = [] then closeObj fuel (h.set obj o') obj
          else .ok (h.set obj o')) ∧
      o'.buf.Bounded N ∧ o'.buf.contents N = c.drop n ∧ o'.gotEOF = o.gotEOF) ∧
    (c ≠ [] → kernel (c.take k) = .epipe → ∃ o',
      writeToObj N fuel h obj kernel = closeObj fuel (h.set obj o') obj ∧
      o'.buf.contents N = [] ∧ o'.gotEOF = true) ∧
    (c ≠ [] → kernel (c.take k) = .again → writeToObj N fuel h obj kernel = .ok (h.set obj o)) ∧
    (c ≠ [] → kernel (c.take k) = .failed → writeToObj N fuel h obj kernel = .error .fatal) ∧
    ((o.buf.advance N (o.buf.run N)).advance N
      ((o.buf.advance N (o.buf.run N)).run N)).contents N = [] := by
  intro c k
  have hN : 0 < N := by have := hb.1; omega
  have hrun : k = o.buf.run N := (Buf.run_eq hb).symm
  have hflush := flushRun_eq N kernel hb
  refine ⟨by rw [hrun]; exact Buf.run_pos_iff hb, fun hc => ?_, fun hc n hn => ?_, fun hc he => ?_,
    fun hc ha => ?_, fun hc hf => ?_, ?_⟩
  · -- nothing to write
    have hc' : ¬ o.buf.contents N ≠ [] := not_not.mpr hc
    rw [writeToObj_finish N fuel kernel ho hfd hb (by rw [hflush, if_neg hc']; rfl) hb]
    simp only [show o.buf.contents N = [] from hc, and_true]
  · -- the kernel took `n` bytes
    have hnk : n ≤ o.buf.run N := by rw [← hrun]; exact hk n hn
    have hw : flushRun N o kernel = .ok (if 0 < n then { o with buf := o.buf.advance N n } else o) := by
      rw [hflush, if_pos hc, hn]; rfl
    by_cases hn0 : 0 < n
    · rw [if_pos hn0] at hw
      exact ⟨_, writeToObj_finish N fuel kernel ho hfd hb hw (Buf.advance_bounded hb hnk),
        Buf.advance_bounded hb hnk, Buf.contents_advance hb hnk, rfl⟩
    · rw [if_neg hn0] at hw
      exact ⟨o, writeToObj_finish N fuel kernel ho hfd hb hw hb, hb,
        by rw [show n = 0 by omega, List.drop_zero], rfl⟩
  · -- EPIPE
    have hb' : Buf.Bounded N { o.buf with bufIn := 0, bufOut := 0 } := ⟨hN, hN⟩
    have hempty : Buf.contents N { o.buf with bufIn := 0, bufOut := 0 } = [] :=
      (Buf.in_eq_out_iff hb').mp rfl
    refine ⟨{ o with gotEOF := true, buf := { o.buf with bufIn := 0, bufOut := 0 } }, ?_, hempty, rfl⟩
    rw [writeToObj_finish N fuel kernel ho hfd hb (by rw [hflush, if_pos hc, he]; rfl) hb']
    simp [hempty]
  · -- EAGAIN
    rw [writeToObj_finish N fuel kernel ho hfd hb (by rw [hflush, if_pos hc, ha]; rfl) hb]
    simp [hc]
  · -- any other error
    simp only [writeToObj, Heap.get_of_objs ho, assertC_of hfd, assertC_of hb, pure_bind, hflush,
      if_pos hc, hf]
    rfl
  · -- two full flushes
    rw [← List.length_eq_zero, Buf.length_contents]; exact Buf.two_flushes_empty hb

/-- A client holding `AB` in a buffer of 8. -/
def flushObj : Obj :=
  { createObj "u@h" (.socket false 0) with fd := 4, buf := ⟨fun i => [65, 66].getD i 0, 2, 0⟩ }

/-- A kernel that takes every byte it is handed. -/
def acceptAll (bs : List UInt8) : WriteOutcome := .wrote bs.length

theorem flushObj_spec :
    let c := flushObj.buf.contents 8
    let k := min (flushObj.buf.count 8) (8 - flushObj.buf.bufOut)
    let h := (Heap.empty.alloc flushObj).1
    (0 < k ↔ c ≠ []) ∧
    (c = [] → writeToObj 8 0 h 0 acceptAll =
      if flushObj.gotEOF then closeObj 0 (h.set 0 flushObj) 0 else .ok (h.set 0 flushObj)) ∧
    (c ≠ [] → ∀ n, acceptAll (c.take k) = .wrote n → ∃ o',
      writeToObj 8 0 h 0 acceptAll =
        (if o'.gotEOF ∧ o'.buf.contents 8 = [] then closeObj 0 (h.set 0 o') 0
          else .ok (h.set 0 o')) ∧
      o'.buf.Bounded 8 ∧ o'.buf.contents 8 = c.drop n ∧ o'.gotEOF = flushObj.gotEOF) ∧
    (c ≠ [] → acceptAll (c.take k) = .epipe → ∃ o',
      writeToObj 8 0 h 0 acceptAll = closeObj 0 (h.set 0 o') 0 ∧
      o'.buf.contents 8 = [] ∧ o'.gotEOF = true) ∧
    (c ≠ [] → acceptAll (c.take k) = .again → writeToObj 8 0 h 0 acceptAll = .ok (h.set 0 flushObj)) ∧
    (c ≠ [] → acceptAll (c.take k) = .failed → writeToObj 8 0 h 0 acceptAll = .error .fatal) ∧
    ((flushObj.buf.advance 8 (flushObj.buf.run 8)).advance 8
      ((flushObj.buf.advance 8 (flushObj.buf.run 8)).run 8)).contents 8 = [] :=
  writeToObj_spec 8 0 acceptAll rfl (by decide) (by decide) fun n hn => by
    injection hn with hn; rw [← hn]; exact List.length_take_le _ _

/-! ## Cursors stay in the array -/

theorem flushRun_bounded {N : Nat} {o o' : Obj} {kernel : List UInt8 → WriteOutcome}
    (hb : o.buf.Bounded N) (hok : flushRun N o kernel = .ok o') (hout : o'.buf.bufOut < N) :
    o'.buf.Bounded N := by
  refine ⟨?_, hout⟩
  unfold flushRun at hok
  split at hok
  · unfold afterWrite at hok
    split at hok
    · cases hok; split <;> exact hb.1
    · cases hok; exact Nat.lt_of_le_of_lt (Nat.zero_le _) hb.1
    · cases hok; exact hb.1
    · cases hok
  · cases hok; exact hb.1

/-- `write_to_obj` keeps every cursor in the array. -/
theorem writeToObj_allBounded {N fuel : Nat} {h h' : Heap} {obj : Nat}
    {kernel : List UInt8 → WriteOutcome} (hb : h.AllBounded N)
    (hok : writeToObj N fuel h obj kernel = .ok h') : h'.AllBounded N := by
  simp only [writeToObj, bind_eq_ok] at hok
  obtain ⟨o, -, _, -, _, hbo, o', ho', _, hout, hok⟩ := hok
  have hb' := flushRun_bounded (assertC_eq_ok.mp hbo) ho' (assertC_eq_ok.mp hout)
  split at hok
  · exact (closeObj_keeps hok).allBounded (hb.set hb')
  · cases hok; exact hb.set hb'

end Conman
