import ClimateLink.Proofs.Framer.Retention
import ClimateLink.Proofs.Guarded.Coding

/-!
# Guarded framing

A framer that works with guarded operations. It keeps the size of the frame that it waits for and
not its header, looks for the magic in the windows of its buffer, keeps what may be the start of one
at the end, and takes frames out in a loop.

**Theorem (`never_breached`).** Whatever is decoded, encoded, or pushed into a framer, with whatever
resets between, no operation leaves its bounds and every loop ends; what comes out is what
`Frame.decode`, `Frame.encode` and the framer give.

The size that is waited for was read from bytes that may be behind others by now, but it came from a
header, so it is that of the smallest frame at least: there is a trailer to check, and a byte to
pass over if the frame is refused.
-/

namespace ClimateLink.Guarded

open ClimateLink.Frame Framer Wire

/-! ## Looking for the magic -/

/-- How many bytes at the end can open the magic: `n` of them, or fewer. -/
def kept (bs : Bytes) : (n : Nat) → Guarded Nat
  | 0 => return 0
  | n + 1 => do
    let part ← slice magic 0 (n + 1)
    if n + 1 ≤ bs.length ∧ part.isSuffixOf bs then return n + 1 else kept bs n

/-- How many bytes stand in front of the magic, or of what can still become the magic. -/
def surplus (bs : Bytes) : Guarded Nat :=
  match bs.tails.findIdx? magic.isPrefixOf with
  | some position => pure position
  | none => do minus bs.length (← kept bs 3)

/-- Drops bytes until the magic, or what can still become the magic, is in front. -/
def skip (bs : Bytes) : Guarded Bytes :=
  if magic.isPrefixOf bs then return bs else do
    let n ← surplus bs
    if 0 < n then advance bs n else return bs

/-- What is kept is the longest start of a magic that stands at the end. -/
theorem kept_of (bs : Bytes) {n : Nat} (small : n ≤ 4) : ∃ k, kept bs n = pure k ∧ k ≤ n ∧
    magic.take k <:+ bs ∧ ∀ m, k < m → m ≤ n → ¬magic.take m <:+ bs := by
  induction n with
  | zero => exact ⟨0, rfl, Nat.le_refl 0, List.nil_suffix, fun m more less => by omega⟩
  | succ n ih =>
    obtain ⟨k, shorter, less, ends, longest⟩ := ih (Nat.le_of_succ_le small)
    have size : (magic.take (n + 1)).length = n + 1 := List.length_take_of_le small
    rw [kept, slice_of (Nat.zero_le _) small, pure_bind]
    by_cases here : magic.take (n + 1) <:+ bs
    · refine ⟨n + 1, if_pos ⟨size ▸ here.length_le, List.isSuffixOf_iff_suffix.2 here⟩,
        Nat.le_refl _, here, fun m more less => by omega⟩
    · refine ⟨k, ?_, Nat.le_succ_of_le less, ends, fun m more less => ?_⟩
      · rw [if_neg fun both => here (List.isSuffixOf_iff_suffix.1 both.2), shorter]
      · rcases Nat.le_succ_iff.1 less with less | rfl
        · exact longest m more less
        · exact here

/-- Looking for the magic passes over everything in front of the first place where it may be. -/
theorem seek_eq_drop {bs : Bytes} {i : Nat} (here : AtMagic (bs.drop i))
    (away : ∀ j < i, ¬AtMagic (bs.drop j)) : seek bs = bs.drop i := by
  induction i generalizing bs with
  | zero => exact seek_of_atMagic here
  | succ i ih =>
    cases bs with
    | nil => exact absurd (.inr List.nil_prefix) (away 0 (Nat.zero_lt_succ i))
    | cons b rest =>
      have first : ¬AtMagic (b :: rest) := away 0 (Nat.zero_lt_succ i)
      rw [seek_cons, if_neg first]
      exact ih here fun j before => away (j + 1) (Nat.succ_lt_succ before)

theorem not_prefix_magic {bs : Bytes} {i j : Nat} (here : magic <+: bs.drop i) (before : j < i) :
    ¬bs.drop j <+: magic := by
  intro part
  have room : magic.length ≤ bs.length - i := List.length_drop ▸ here.length_le
  have few : bs.length - j ≤ magic.length := List.length_drop ▸ part.length_le
  have some_magic : 0 < magic.length := by decide
  omega

/-- **Looking for the magic keeps its bounds**: what is kept is not more than there is, and so what
is passed over is there. -/
theorem surplus_of (bs : Bytes) :
    ∃ n, surplus bs = pure n ∧ n ≤ bs.length ∧ seek bs = bs.drop n := by
  unfold surplus
  cases position : bs.tails.findIdx? magic.isPrefixOf with
  | some p =>
    obtain ⟨inside, here, before⟩ := List.findIdx?_eq_some_iff_getElem.1 position
    rw [List.length_tails] at inside
    rw [List.getElem_tails, List.isPrefixOf_iff_prefix] at here
    refine ⟨p, rfl, Nat.le_of_lt_succ inside, seek_eq_drop (.inl here) ?_⟩
    rintro j less (sooner | part)
    · refine before j less ?_
      rwa [List.getElem_tails, List.isPrefixOf_iff_prefix]
    · exact not_prefix_magic here less part
  | none =>
    have nowhere (j : Nat) : ¬magic <+: bs.drop j := by
      have among : bs.drop j ∈ bs.tails := (List.mem_tails _ _).2 (List.drop_suffix j bs)
      rw [← List.isPrefixOf_iff_prefix, List.findIdx?_eq_none_iff.1 position _ among]
      exact Bool.false_ne_true
    -- Without the magic anywhere, what is kept is its longest start at the end.
    obtain ⟨n, kept, few, ends, longest⟩ := kept_of bs (n := 3) (by decide)
    have size : (magic.take n).length = n := List.length_take_of_le (Nat.le_succ_of_le few)
    have room : n ≤ bs.length := size ▸ ends.length_le
    simp only [kept, pure_bind, minus_of room]
    refine ⟨_, rfl, Nat.sub_le _ _, seek_eq_drop (.inr ?_) ?_⟩
    · have last := List.suffix_iff_eq_drop.1 ends
      rw [size] at last
      rw [← last]
      exact List.take_prefix n magic
    · rintro j less (sooner | part)
      · exact nowhere j sooner
      · -- What can become the magic there is a longer start of it at the end.
        have whole : bs.drop j = magic.take (bs.length - j) :=
          List.length_drop ▸ List.prefix_iff_eq_take.1 part
        have most : bs.length - j ≤ 4 := List.length_drop ▸ part.length_le
        have short : bs.length - j ≠ 4 := fun all => nowhere j (by rw [whole, all]; exact ⟨[], rfl⟩)
        refine longest (bs.length - j) (by omega) (by omega) ?_
        rw [← whole]
        exact List.drop_suffix j bs

theorem skip_eq (bs : Bytes) : skip bs = pure (seek bs) := by
  by_cases opens : magic <+: bs
  · rw [skip, if_pos (List.isPrefixOf_iff_prefix.2 opens), seek_of_atMagic (.inl opens)]
  · obtain ⟨n, found, inside, sought⟩ := surplus_of bs
    rw [skip, if_neg (mt List.isPrefixOf_iff_prefix.1 opens), found, pure_bind, sought]
    split
    · exact advance_of inside
    · next none =>
      obtain rfl : n = 0 := by omega
      rfl

/-! ## Taking frames out -/

/-- A framer that keeps the size of the frame that it waits for. -/
structure Store where
  buffer : Bytes
  expected : Option Nat
  dropped : Nat
  deriving DecidableEq, Repr

/-- What is kept of a framer. -/
def Store.of (framer : Framer) : Store :=
  ⟨framer.buffer, framer.awaited.map Header.frameSize, framer.dropped⟩

/-- Finds the frame in front and learns its size, or sees whether all of it is there. -/
def lookStep (store : Store) : Guarded (Store ⊕ (Option Nat × Store)) :=
  match store.expected with
  | none => do
    let buffer ← skip store.buffer
    if buffer.length < minSize then return .inr (none, { store with buffer := buffer })
    else
      let size ← plus minSize (← wordAt buffer lengthOffset).toNat
      return .inl { store with buffer := buffer, expected := some size }
  | some size => return .inr (if size ≤ store.buffer.length then some size else none, store)

/-- The size of the frame in front, once all of it is there. -/
def look (store : Store) : Guarded (Option Nat × Store) := rounds lookStep 2 store

/-- Takes one frame out of the buffer, or drops it, if one is complete. -/
def drainStep (state : List Packet × Store) :
    Guarded ((List Packet × Store) ⊕ (List Packet × Store)) := do
  let (packets, store) := state
  let (found, store) ← look store
  match found with
  | none => return .inr (packets, store)
  | some size =>
    let frame ← slice store.buffer 0 size
    match ← (accept frame).run with
    | .ok packet =>
      let rest ← advance store.buffer size
      return .inl (packets ++ [packet], ⟨rest, none, store.dropped⟩)
    | .error _ =>
      let rest ← advance store.buffer 1
      return .inl (packets, ⟨rest, none, store.dropped + 1⟩)

/-- Takes the frames that are complete out of the buffer. -/
def drain (store : Store) : Guarded (List Packet × Store) :=
  rounds drainStep (store.buffer.length + 1) ([], store)

variable {buffer : Bytes} {awaited : Option Header} {dropped : Nat} {header : Header}

theorem look_of_some (size : Nat) : look ⟨buffer, some size, dropped⟩ =
    pure (if size ≤ buffer.length then some size else none, ⟨buffer, some size, dropped⟩) := rfl

theorem look_of_none (h : awaited.or (header? (front awaited buffer)) = none) :
    look (Store.of ⟨buffer, awaited, dropped⟩) =
      pure (none, Store.of ⟨front awaited buffer, none, dropped⟩) := by
  obtain ⟨rfl, missing⟩ := Option.or_eq_none_iff.1 h
  have short : (seek buffer).length < minSize := by
    cases rests_of_no_header missing dropped with
    | searching _ short => exact short
  have step : lookStep ⟨buffer, none, dropped⟩ =
      pure (.inr (none, ⟨seek buffer, none, dropped⟩)) := by
    simp only [lookStep, skip_eq, pure_bind, if_pos short]
  exact rounds_of_inr step 1

theorem look_of_header (h : awaited.or (header? (front awaited buffer)) = some header) :
    look (Store.of ⟨buffer, awaited, dropped⟩) =
      pure
        (if header.frameSize ≤ (front awaited buffer).length then some header.frameSize else none,
        Store.of ⟨front awaited buffer, some header, dropped⟩) := by
  cases awaited with
  | some known =>
    cases h
    exact look_of_some header.frameSize
  | none =>
    obtain ⟨large, decoded⟩ := header?_eq_some_iff.1 h
    obtain ⟨-, opens, rfl⟩ := Header.decode_eq_ok_iff.1 decoded
    have long : ¬(seek buffer).length < minSize := Nat.not_lt.2 large
    have inside : lengthOffset + 1 < (seek buffer).length := Nat.lt_of_lt_of_le (by decide) large
    have size : plus minSize (Wire.wordAt (seek buffer) lengthOffset).toNat = pure _ :=
      plus_of_word (Nat.le_refl _) (UInt16.toNat_lt _)
    have step : lookStep ⟨buffer, none, dropped⟩ =
        pure (.inl ⟨seek buffer, some (Header.of (seek buffer)).frameSize, dropped⟩) := by
      simp only [lookStep, skip_eq, pure_bind, if_neg long, wordAt_of inside, size]
      rfl
    exact (rounds_of_inl step 1).trans (look_of_some _)

/-- **A frame is only checked when it is there**: it has the size of the smallest at least, so that
it has a trailer. -/
theorem accept_of (complete : header.frameSize ≤ buffer.length) :
    slice buffer 0 header.frameSize = pure (buffer.take header.frameSize) ∧
      (accept (buffer.take header.frameSize)).run =
        pure (Framer.accept (buffer.take header.frameSize)) := by
  refine ⟨slice_of (Nat.zero_le _) complete, ?_⟩
  rw [accept_eq]
  · rfl
  · rw [List.length_take_of_le complete]
    exact header.minSize_le_frameSize

variable {packets : List Packet}

theorem drainStep_of_taken {packet : Packet}
    (h : awaited.or (header? (front awaited buffer)) = some header)
    (complete : header.frameSize ≤ (front awaited buffer).length)
    (accepted : Framer.accept ((front awaited buffer).take header.frameSize) = .ok packet) :
    drainStep (packets, Store.of ⟨buffer, awaited, dropped⟩) = pure (.inl (packets ++ [packet],
      Store.of ⟨(front awaited buffer).drop header.frameSize, none, dropped⟩)) := by
  obtain ⟨cut, checked⟩ := accept_of complete
  simp only [drainStep, look_of_header h, if_pos complete, pure_bind]
  simp only [Store.of, cut, checked, accepted, advance_of complete, pure_bind]
  rfl

theorem drainStep_of_refused {reason : Malformed}
    (h : awaited.or (header? (front awaited buffer)) = some header)
    (complete : header.frameSize ≤ (front awaited buffer).length)
    (refused : Framer.accept ((front awaited buffer).take header.frameSize) = .error reason) :
    drainStep (packets, Store.of ⟨buffer, awaited, dropped⟩) =
      pure (.inl (packets, Store.of ⟨(front awaited buffer).drop 1, none, dropped + 1⟩)) := by
  obtain ⟨cut, checked⟩ := accept_of complete
  have some_byte : 1 ≤ (front awaited buffer).length :=
    Nat.lt_of_lt_of_le (frameSize_pos header) complete
  simp only [drainStep, look_of_header h, if_pos complete, pure_bind]
  simp only [Store.of, cut, checked, refused, advance_of some_byte, pure_bind]
  rfl

theorem drainStep_of_lt (h : awaited.or (header? (front awaited buffer)) = some header)
    (short : (front awaited buffer).length < header.frameSize) :
    drainStep (packets, Store.of ⟨buffer, awaited, dropped⟩) =
      pure (.inr (packets, Store.of ⟨front awaited buffer, some header, dropped⟩)) := by
  simp only [drainStep, look_of_header h, if_neg (Nat.not_le.2 short), pure_bind]

theorem drainStep_of_none (h : awaited.or (header? (front awaited buffer)) = none) :
    drainStep (packets, Store.of ⟨buffer, awaited, dropped⟩) =
      pure (.inr (packets, Store.of ⟨front awaited buffer, none, dropped⟩)) := by
  simp only [drainStep, look_of_none h, pure_bind]

/-- After bytes were taken out there are rounds left for the others. -/
theorem exists_round {n k : Nat} (enough : buffer.length ≤ n) (pos : 0 < k)
    (inside : k ≤ (front awaited buffer).length) :
    ∃ m, n = m + 1 ∧ ((front awaited buffer).drop k).length ≤ m := by
  have less := length_front_le awaited buffer
  refine ⟨n - 1, by omega, ?_⟩
  rw [List.length_drop]
  omega

/-- **Every round but the last takes bytes out of the buffer**, so there are no more rounds than
bytes, and one. -/
theorem rounds_drainStep (buffer : Bytes) (awaited : Option Header) (dropped : Nat) :
    ∀ n, buffer.length ≤ n → ∀ packets,
      rounds drainStep (n + 1) (packets, Store.of ⟨buffer, awaited, dropped⟩) =
        pure (packets ++ (Framer.drain buffer awaited dropped).1,
          Store.of (Framer.drain buffer awaited dropped).2) := by
  -- The number of rounds is only bounded: a round takes one byte of the buffer or more.
  induction buffer, awaited, dropped using Framer.drain.induct with
  | case1 buffer awaited dropped rest none =>
    intro n enough packets
    rw [rounds_of_inr (drainStep_of_none none), drain_of_none none, List.append_nil]
  | case2 buffer awaited dropped rest header found complete packet accepted later framer _ ih =>
    intro n enough packets
    obtain ⟨m, rfl, left⟩ := exists_round enough (frameSize_pos header) complete
    rw [rounds_of_inl (drainStep_of_taken found complete accepted), ih m left,
      drain_of_ok found complete accepted, List.append_assoc, List.singleton_append]
  | case3 buffer awaited dropped rest header found complete reason refused ih =>
    intro n enough packets
    have some_byte := Nat.lt_of_lt_of_le (frameSize_pos header) complete
    obtain ⟨m, rfl, left⟩ := exists_round enough Nat.one_pos some_byte
    rw [rounds_of_inl (drainStep_of_refused found complete refused), ih m left,
      drain_of_error found complete refused]
  | case4 buffer awaited dropped rest header found incomplete =>
    intro n enough packets
    have short := Nat.lt_of_not_le incomplete
    rw [rounds_of_inr (drainStep_of_lt found short), drain_of_lt found short, List.append_nil]

/-- **Draining keeps its bounds and ends.** -/
theorem drain_eq (buffer : Bytes) (awaited : Option Header) (dropped : Nat) :
    drain (Store.of ⟨buffer, awaited, dropped⟩) =
      pure ((Framer.drain buffer awaited dropped).1,
        Store.of (Framer.drain buffer awaited dropped).2) :=
  rounds_drainStep buffer awaited dropped _ (Nat.le_refl _) []

/-! ## Calls -/

/-- Takes more of the stream. -/
def push (store : Store) (bytes : Bytes) : Guarded (List Packet × Store) :=
  drain { store with buffer := store.buffer ++ bytes }

/-- Forgets what has arrived. -/
def clear (store : Store) : Store := { store with buffer := [], expected := none }

/-- The packets that each of several calls gives, and the store after them. -/
def run (store : Store) : List Call → Guarded (List (List Packet) × Store)
  | [] => return ([], store)
  | .push bytes :: calls => do
    let (packets, store) ← push store bytes
    let (later, last) ← run store calls
    return (packets :: later, last)
  | .clear :: calls => do
    let (later, last) ← run (clear store) calls
    return ([] :: later, last)

theorem push_eq (framer : Framer) (bytes : Bytes) : push (Store.of framer) bytes =
    pure ((framer.push bytes).1, Store.of (framer.push bytes).2) :=
  drain_eq (framer.buffer ++ bytes) framer.awaited framer.dropped

theorem clear_eq (framer : Framer) : clear (Store.of framer) = Store.of framer.clear := rfl

/-- **A framer keeps its bounds in every call.** -/
theorem run_eq (framer : Framer) (calls : List Call) :
    run (Store.of framer) calls =
      pure (framer.replies calls, Store.of (calls.foldl Framer.call framer)) := by
  induction calls generalizing framer with
  | nil => rfl
  | cons step calls ih =>
    cases step with
    | push bytes =>
      rw [run, push_eq]
      simp only [pure_bind, ih]
      rfl
    | clear =>
      rw [run, clear_eq, ih]
      rfl

/-- **Nothing that comes in, and nothing that is to go out, makes an operation leave its bounds.**
Every string of bytes is decoded or refused, every packet is encoded or refused, and a new framer
gives its packets and goes on after any calls: in each case the guarded operations end without a
breach, in the result of those without guards. The count of dropped frames is never more than the
number of bytes that came in. -/
theorem never_breached :
    (∀ frame, decode frame = sure (Frame.decode frame)) ∧
    (∀ packet, encode packet = sure (Frame.encode packet)) ∧
    ∀ calls, run ⟨[], none, 0⟩ calls = pure (empty.replies calls, Store.of (after calls)) ∧
      (after calls).dropped ≤ (calls.flatMap received).length :=
  ⟨decode_eq, encode_eq, fun calls => ⟨run_eq empty calls, dropped_after_le calls⟩⟩

end ClimateLink.Guarded
