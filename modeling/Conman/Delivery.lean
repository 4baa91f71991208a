/-
The data path as queues. Each live object holds a queue of bytes (`Heap.streams`), and
what `read_from_obj` is for is to append the bytes read to the queue of each of the
object's readers, every queue keeping at most `MAX_BUF_SIZE - 1` bytes by dropping its
oldest ones (`broadcast`). In every state reached without a close, a read of some bytes
succeeds and does exactly that (`readFromObj_broadcasts`), provided no reader's buffer
holds data and is filled exactly by the read: there `write_obj_data` loses the whole
buffer (`writeObjData_fill_loses_all`).
-/
import Mathlib.Data.List.Nodup
import Conman.Symmetry

namespace Conman

/-- The bytes each live object has buffered, oldest first. -/
def Heap.streams (N : Nat) (h : Heap) (p : Nat) : Option (List UInt8) :=
  (h.objs p).map fun o => o.buf.contents N

/-- What a read is for: the bytes `d` go to the end of the queue of each of `rs`, a
queue keeping at most `cap` bytes. -/
def broadcast (cap : Nat) (s : Nat → Option (List UInt8)) (rs : List Nat) (d : List UInt8) :
    Nat → Option (List UInt8) :=
  fun p => if p ∈ rs then (s p).map fun q => enqueueDropOldest cap q d else s p

/-- Where `write_obj_data` keeps to `broadcast`: no queue of `rs` holds data and is filled
to `MAX_BUF_SIZE` bytes exactly by `d`. -/
def Fits (N : Nat) (s : Nat → Option (List UInt8)) (rs : List Nat) (d : List UInt8) : Prop :=
  ∀ r ∈ rs, (s r).all fun q => q.isEmpty || q.length + d.length != N

instance (N : Nat) (s : Nat → Option (List UInt8)) (rs : List Nat) (d : List UInt8) :
    Decidable (Fits N s rs d) :=
  inferInstanceAs (Decidable (∀ r ∈ rs, _))

@[simp] theorem Heap.streams_set (N : Nat) (h : Heap) (p q : Nat) (o : Obj) :
    (h.set p o).streams N q = if q = p then some (o.buf.contents N) else h.streams N q := by
  unfold Heap.streams; split <;> simp_all

theorem Fits.cons {N : Nat} {s : Nat → Option (List UInt8)} {r : Nat} {rs : List Nat}
    {d : List UInt8} (hf : Fits N s (r :: rs) d) {q : List UInt8} (hq : s r = some q) :
    q = [] ∨ q.length + d.length ≠ N := by
  simpa [hq] using hf r (.head rs)

/-- `fanOut` over distinct live readers, none at EOF, appends `d` to each one's queue. -/
theorem fanOut_streams {N : Nat} {d : List UInt8} (hd : d ≠ []) (hdN : d.length ≤ N - 1) :
    ∀ {h : Heap} {rs : List Nat}, rs.Nodup → h.AllBounded N →
      (∀ r ∈ rs, ∃ ro, h.objs r = some ro ∧ ro.gotEOF = false) →
      Fits N (h.streams N) rs d →
      ∃ h', fanOut N d h rs = .ok h' ∧ h'.streams N = broadcast (N - 1) (h.streams N) rs d
  | h, [], _, _, _, _ => ⟨h, rfl, funext fun p => by simp [broadcast]⟩
  | h, r :: rs, hnd, hb, hlive, hfit => by
    obtain ⟨hr, hnd⟩ := List.nodup_cons.mp hnd
    obtain ⟨ro, hro, heof⟩ := hlive r (.head rs)
    have hs : h.streams N r = some (ro.buf.contents N) := by simp [Heap.streams, hro]
    have hfit' : ro.buf.count N = 0 ∨ ro.buf.count N + min d.length (N - 1) ≠ N := by
      rw [min_eq_left hdN, ← Buf.length_contents, List.length_eq_zero]; exact hfit.cons hs
    obtain ⟨b', hw, hb', hc⟩ := writeObjData_contents N ro.buf (hb r ro hro) d hd hfit'
    rw [min_eq_left hdN, List.take_of_length_le hdN] at *
    have hne : ∀ r' ∈ rs, r' ≠ r := fun r' h' e => hr (e ▸ h')
    obtain ⟨h', hok, hs'⟩ := fanOut_streams hd hdN (h := h.set r { ro with buf := b' }) hnd
      (hb.set hb')
      (fun r' h' => by rw [Heap.objs_set_ne _ _ (hne r' h')]; exact hlive r' (.tail _ h'))
      (fun r' h' => by rw [Heap.streams_set, if_neg (hne r' h')]; exact hfit r' (.tail _ h'))
    refine ⟨h', by simpa only [fanOut, feedReader_eq hro heof hw, bind, Except.bind] using hok,
      ?_⟩
    rw [hs']
    funext p
    by_cases hp : p = r
    · subst hp; simp [broadcast, hr, hs, hc]
    · simp [broadcast, hp]

/-- **A read delivers its bytes to every reader.** In every state reached without a
close, a read of some bytes from an open object succeeds when `time()` does, the state
after it is again reached without a close, and each reader's queue gets the bytes kept
(`read()` takes at most `MAX_BUF_SIZE - 1`) appended, dropping its oldest bytes beyond
`MAX_BUF_SIZE - 1`; no other queue changes. It needs no reader's buffer to hold data and
be filled exactly by the read. -/
theorem readFromObj_broadcasts {N fuel : Nat} {h : Heap} (hr : Reachable N (Action.closeFree N) h)
    {obj : Nat} {o : Obj} (ho : h.objs obj = some o) (hfd : 0 ≤ o.fd) {d : List UInt8}
    (hd : d.take (N - 1) ≠ []) {now : Int} (hnow : now ≠ -1)
    (hfit : Fits N (h.streams N) o.readers (d.take (N - 1))) :
    ∃ h', readFromObj N fuel h obj (.bytes d) now = .ok h' ∧
      Reachable N (Action.closeFree N) h' ∧
      h'.streams N = broadcast (N - 1) (h.streams N) o.readers (d.take (N - 1)) := by
  have hi := hr.intact
  have hN : 0 < N := by
    by_contra hN; exact hd (List.take_eq_nil_iff.mpr (.inl (by omega)))
  -- the socket's stamp changes no buffer, link or `gotEOF`
  have hstamp : ∃ h1, stampRead h obj o now = .ok h1 := by
    unfold stampRead; split_ifs; exacts [⟨_, rfl⟩, ⟨h, rfl⟩]
  obtain ⟨h1, h1ok⟩ := hstamp
  have hb := hr.allBounded hN
  have hsame : ∀ p, (h1.objs p).map (fun o => (o.buf, o.gotEOF)) =
      (h.objs p).map (fun o => (o.buf, o.gotEOF)) := fun p => by
    rcases stampRead_cases h1ok with rfl | rfl
    · rfl
    · by_cases hp : p = obj <;> simp_all
  have hs1 : h1.streams N = h.streams N := funext fun p => by
    simpa [Heap.streams, Option.map_map] using
      congrArg (Option.map (fun x => Buf.contents N x.1)) (hsame p)
  have hb1 : h1.AllBounded N := by
    rcases stampRead_cases h1ok with rfl | rfl
    exacts [hb, hb.set (hb obj o ho)]
  -- the readers are distinct, live and not at EOF
  have hnd : o.readers.Nodup := List.nodup_iff_count_le_one.mpr fun r => by
    by_cases hm : r ∈ o.readers
    · obtain ⟨or, hor⟩ := Option.ne_none_iff_exists'.mp ((hi.symmetric.2 obj o ho).2 r hm)
      exact (hi.symmetric.1 r obj or o hor ho).2
    · rw [List.count_eq_zero_of_not_mem hm]; exact Nat.zero_le 1
  have hlive : ∀ r ∈ o.readers, ∃ ro, h1.objs r = some ro ∧ ro.gotEOF = false := by
    intro r hm
    obtain ⟨or, hor⟩ := Option.ne_none_iff_exists'.mp ((hi.symmetric.2 obj o ho).2 r hm)
    have he := hsame r
    rw [hor] at he
    obtain ⟨ro, hro, hre⟩ := Option.map_eq_some'.mp he
    exact ⟨ro, hro, (congrArg Prod.snd hre).trans (hi.noEOF r or hor)⟩
  have hdN : (d.take (N - 1)).length ≤ N - 1 := List.length_take_le _ _
  obtain ⟨h', hok, hs'⟩ := fanOut_streams hd hdN hnd hb1 hlive (hs1 ▸ hfit)
  have hread : readFromObj N fuel h obj (.bytes d) now = .ok h' := by
    simp only [readFromObj, Heap.get_of_objs ho, assertC_of hfd, pure_bind, if_neg hd, h1ok]
    exact hok
  exact ⟨h', hread, hr.step (.read obj (.bytes d) now) fuel (by simpa [Action.closeFree] using hd)
    hread, hs1 ▸ hs'⟩

/-- Client `s1` (2) of `linkedHeap` sends `Hi` to console `c` (1). -/
theorem client_bytes_reach_console :
    ∃ h', readFromObj 8 2 linkedHeap 2 (.bytes [72, 105]) 1 = .ok h' ∧
      Reachable 8 (Action.closeFree 8) h' ∧
      h'.streams 8 = broadcast 7 (linkedHeap.streams 8) [1] [72, 105] :=
  @readFromObj_broadcasts 8 2 linkedHeap linkedHeap_reachable 2 _ rfl (by decide) [72, 105]
    (by decide) 1 (by decide) (by decide)

end Conman
