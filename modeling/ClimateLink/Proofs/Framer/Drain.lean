import ClimateLink.Frame.Framer

/-!
# One look of a framer

What `drain` does when it looks at its buffer once, and what does not change about that when more
bytes follow.

**Looking for the magic (`seek_append`).** It can be done before the stream goes on.

**A header that is found (`front_append`, `or_header?_append`).** It stands, with all bytes in
front of it, however the stream goes on.
-/

namespace ClimateLink

open ClimateLink.Frame

theorem Frame.Header.decode_append {bs : Bytes} {header : Header}
    (h : Header.decode bs = .ok header) (more : Bytes) :
    Header.decode (bs ++ more) = .ok header := by
  unfold Header.decode at h
  split at h
  · exact h
  · cases h

namespace Framer

/-! ## The magic -/

/-- The bytes start with the magic, or with more bytes they may. -/
def AtMagic (bs : Bytes) : Prop := magic <+: bs ∨ bs <+: magic

instance (bs : Bytes) : Decidable (AtMagic bs) :=
  inferInstanceAs (Decidable (magic <+: bs ∨ bs <+: magic))

theorem seek_cons (b : UInt8) (rest : Bytes) :
    seek (b :: rest) = if AtMagic (b :: rest) then b :: rest else seek rest := by
  have same : (magic.isPrefixOf (b :: rest) || (b :: rest).isPrefixOf magic) = true ↔
      AtMagic (b :: rest) := by
    rw [Bool.or_eq_true, List.isPrefixOf_iff_prefix, List.isPrefixOf_iff_prefix, AtMagic]
  by_cases h : AtMagic (b :: rest)
  · rw [seek, if_pos (same.2 h), if_pos h]
  · rw [seek, if_neg (mt same.1 h), if_neg h]

theorem seek_of_atMagic {bs : Bytes} (h : AtMagic bs) : seek bs = bs := by
  cases bs with
  | nil => rfl
  | cons b rest => rw [seek_cons, if_pos h]

theorem atMagic_seek (bs : Bytes) : AtMagic (seek bs) := by
  induction bs with
  | nil => exact .inr List.nil_prefix
  | cons b rest ih =>
    by_cases h : AtMagic (b :: rest)
    · rwa [seek_of_atMagic h]
    · rwa [seek_cons, if_neg h]

/-- What cannot be the magic cannot be it however the stream goes on. -/
theorem not_atMagic_append {bs : Bytes} (h : ¬AtMagic bs) (more : Bytes) :
    ¬AtMagic (bs ++ more) := by
  obtain ⟨noMagic, noPart⟩ := not_or.1 h
  rintro (found | found)
  · rcases List.prefix_or_prefix_of_prefix found (List.prefix_append bs more) with whole | part
    · exact noMagic whole
    · exact noPart part
  · exact noPart ((List.prefix_append bs more).trans found)

theorem seek_append (bs more : Bytes) : seek (bs ++ more) = seek (seek bs ++ more) := by
  induction bs with
  | nil => rfl
  | cons b rest ih =>
    by_cases h : AtMagic (b :: rest)
    · rw [seek_of_atMagic h]
    · have still : ¬AtMagic (b :: (rest ++ more)) := not_atMagic_append h more
      rw [seek_cons, if_neg h, List.cons_append, seek_cons, if_neg still, ih]

/-! ## The header in front -/

theorem header?_eq_some_iff {bs : Bytes} {header : Header} :
    header? bs = some header ↔ minSize ≤ bs.length ∧ Header.decode bs = .ok header := by
  unfold header?
  by_cases short : bs.length < minSize
  · rw [if_pos short]
    exact iff_of_false (by rintro ⟨⟩) fun h => absurd short (Nat.not_lt.2 h.1)
  · rw [if_neg short]
    cases Header.decode bs with
    | error e => exact iff_of_false (by rintro ⟨⟩) (by rintro ⟨-, ⟨⟩⟩)
    | ok found =>
      constructor
      · rintro ⟨⟩
        exact ⟨Nat.le_of_not_lt short, rfl⟩
      · rintro ⟨-, ⟨⟩⟩
        rfl

theorem front_append {awaited : Option Header} {buffer : Bytes} {header : Header}
    (h : awaited.or (header? (front awaited buffer)) = some header) (more : Bytes) :
    front awaited (buffer ++ more) = front awaited buffer ++ more := by
  cases awaited with
  | some _ => rfl
  | none =>
    have large : minSize ≤ (seek buffer).length := (header?_eq_some_iff.1 h).1
    have found : magic <+: seek buffer := by
      refine (atMagic_seek buffer).resolve_right fun part => ?_
      exact absurd (Nat.le_trans large part.length_le) (by decide)
    show seek (buffer ++ more) = seek buffer ++ more
    rw [seek_append, seek_of_atMagic (.inl (found.trans (List.prefix_append _ more)))]

theorem or_header?_append {awaited : Option Header} {bs : Bytes} {header : Header}
    (h : awaited.or (header? bs) = some header) (more : Bytes) :
    awaited.or (header? (bs ++ more)) = some header := by
  cases awaited with
  | some _ => exact h
  | none =>
    obtain ⟨large, decoded⟩ := header?_eq_some_iff.1 h
    have longer : minSize ≤ (bs ++ more).length := by
      rw [List.length_append]
      omega
    exact header?_eq_some_iff.2 ⟨longer, Header.decode_append decoded more⟩

theorem take_front_append {awaited : Option Header} {buffer : Bytes} {header : Header}
    (h : awaited.or (header? (front awaited buffer)) = some header)
    (complete : header.frameSize ≤ (front awaited buffer).length) (more : Bytes) :
    header.frameSize ≤ (front awaited (buffer ++ more)).length ∧
      (front awaited (buffer ++ more)).take header.frameSize =
        (front awaited buffer).take header.frameSize := by
  rw [front_append h, List.length_append, List.take_append_of_le_length complete]
  exact ⟨Nat.le_add_right_of_le complete, rfl⟩

/-! ## What a look gives -/

variable {buffer : Bytes} {awaited : Option Header} {dropped : Nat} {header : Header}

theorem drain_of_none (h : awaited.or (header? (front awaited buffer)) = none) :
    drain buffer awaited dropped = ([], ⟨front awaited buffer, none, dropped⟩) := by
  rw [drain]
  simp only [h]

theorem drain_of_lt (h : awaited.or (header? (front awaited buffer)) = some header)
    (short : (front awaited buffer).length < header.frameSize) :
    drain buffer awaited dropped = ([], ⟨front awaited buffer, some header, dropped⟩) := by
  rw [drain]
  simp only [h, if_neg (Nat.not_le.2 short)]

theorem drain_of_ok {packet : Packet}
    (h : awaited.or (header? (front awaited buffer)) = some header)
    (complete : header.frameSize ≤ (front awaited buffer).length)
    (accepted : accept ((front awaited buffer).take header.frameSize) = .ok packet) :
    drain buffer awaited dropped =
      (packet :: (drain ((front awaited buffer).drop header.frameSize) none dropped).1,
        (drain ((front awaited buffer).drop header.frameSize) none dropped).2) := by
  rw [drain]
  simp only [h, if_pos complete, accepted]

theorem drain_of_error {reason : Malformed}
    (h : awaited.or (header? (front awaited buffer)) = some header)
    (complete : header.frameSize ≤ (front awaited buffer).length)
    (refused : accept ((front awaited buffer).take header.frameSize) = .error reason) :
    drain buffer awaited dropped = drain ((front awaited buffer).drop 1) none (dropped + 1) := by
  rw [drain]
  simp only [h, if_pos complete, refused]

theorem drain_congr {buffer' : Bytes} {awaited' : Option Header}
    (hfront : front awaited buffer = front awaited' buffer')
    (hheader : awaited.or (header? (front awaited buffer)) =
      awaited'.or (header? (front awaited' buffer'))) :
    drain buffer awaited dropped = drain buffer' awaited' dropped := by
  rw [hfront] at hheader
  rw [drain.eq_def buffer, drain.eq_def buffer']
  simp only [hfront, hheader]

end Framer

end ClimateLink
