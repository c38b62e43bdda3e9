import TapeMachine.Proofs.Text.Utf8

/-!
Contract: what decoding with replacement yields, said without a decoder.

Owns: the pieces that bytes fall into, codes of characters and maximal invalid runs; the text that
the pieces stand for; and that the decoder yields this text and no other.

A piece is described by the codes of characters alone: which bytes are the code of a character, and
which could still become one. Ranges of following bytes do not occur in the description.
-/

namespace TapeMachine.Text.Utf8

/-! ## Pieces -/

/-- Bytes with which the code of some character begins. -/
def Begins (bytes : List UInt8) : Prop :=
  ∃ glyph, bytes <+: String.utf8EncodeChar glyph

/-- The first bytes are no character and as many as one replacement stands for: all those that could
still have become the code of a character, or a single byte if there are none. -/
structure Broken (bad rest : List UInt8) : Prop where
  nonempty : bad ≠ []
  /-- No character can be read. -/
  unreadable : ∀ glyph, ¬ String.utf8EncodeChar glyph <+: bad ++ rest
  promising : Begins bad ∨ bad.length = 1
  maximal : ∀ longer, longer <+: bad ++ rest → bad.length < longer.length → ¬ Begins longer

/-- A text that bytes stand for: a character for each code, and a replacement for each maximal
invalid run. -/
inductive Decodes : List UInt8 → List Char → Prop where
  | nil : Decodes [] []
  | glyph (value : Char) {rest : List UInt8} {text : List Char} (others : Decodes rest text) :
      Decodes (String.utf8EncodeChar value ++ rest) (value :: text)
  | broken {bad rest : List UInt8} {text : List Char} (run : Broken bad rest)
      (others : Decodes rest text) : Decodes (bad ++ rest) (replacement :: text)

/-- Bytes have one maximal invalid run at most in front. -/
theorem Broken.unique {bad rest other others : List UInt8} (first : Broken bad rest)
    (second : Broken other others) (same : bad ++ rest = other ++ others) : bad = other := by
  have bound {bad rest other others : List UInt8} (first : Broken bad rest)
      (second : Broken other others) (same : bad ++ rest = other ++ others) :
      other.length ≤ bad.length := by
    refine Nat.le_of_not_lt fun longer => ?_
    have front : other <+: bad ++ rest := same ▸ List.prefix_append other others
    have single := second.promising.resolve_left (first.maximal other front longer)
    have positive := List.length_pos_iff.mpr first.nonempty
    omega
  have size : bad.length = other.length :=
    Nat.le_antisymm (bound second first same.symm) (bound first second same)
  exact (List.append_inj same size).1

/-! ## Codes that are read -/

theorem utf8EncodeChar_ofNat {code : Nat} (valid : code.isValidChar) :
    String.utf8EncodeChar (Char.ofNat code) =
      if code ≤ 0x7F then [UInt8.ofNat code]
      else if code ≤ 0x7FF then
        [UInt8.ofNat (code / 64 % 32 + 0xC0), UInt8.ofNat (code % 64 + 0x80)]
      else if code ≤ 0xFFFF then
        [UInt8.ofNat (code / 4096 % 16 + 0xE0), UInt8.ofNat (code / 64 % 64 + 0x80),
          UInt8.ofNat (code % 64 + 0x80)]
      else
        [UInt8.ofNat (code / 262144 % 8 + 0xF0), UInt8.ofNat (code / 4096 % 64 + 0x80),
          UInt8.ofNat (code / 64 % 64 + 0x80), UInt8.ofNat (code % 64 + 0x80)] := by
  have point : (Char.ofNat code).val.toNat = code := by
    rw [Char.ofNat, dif_pos valid]
    rfl
  unfold String.utf8EncodeChar
  rw [point]

/-- What a leading byte announces, by the number of bytes that follow it. -/
theorem lead?_cases {byte : Nat} {announced : Lead} (leads : lead? byte = some announced) :
    (byte ≤ 0x7F ∧ announced = ⟨byte, []⟩) ∨
    (0xC2 ≤ byte ∧ byte ≤ 0xDF ∧ announced = ⟨byte - 0xC0, [(0x80, 0xBF)]⟩) ∨
    (∃ least greatest, 0xE0 ≤ byte ∧ byte ≤ 0xEF ∧
      announced = ⟨byte - 0xE0, [(least, greatest), (0x80, 0xBF)]⟩ ∧
      0x80 ≤ least ∧ least ≤ greatest ∧ greatest ≤ 0xBF ∧
      (byte = 0xE0 → 0xA0 ≤ least) ∧ (byte = 0xED → greatest ≤ 0x9F)) ∨
    (∃ least greatest, 0xF0 ≤ byte ∧ byte ≤ 0xF4 ∧
      announced = ⟨byte - 0xF0, [(least, greatest), (0x80, 0xBF), (0x80, 0xBF)]⟩ ∧
      0x80 ≤ least ∧ least ≤ greatest ∧ greatest ≤ 0xBF ∧
      (byte = 0xF0 → 0x90 ≤ least) ∧ (byte = 0xF4 → greatest ≤ 0x8F)) := by
  unfold lead? continuation at leads
  by_cases ascii : byte < 0x80
  · rw [if_pos ascii] at leads
    exact .inl ⟨by omega, (Option.some.inj leads).symm⟩
  by_cases early : byte < 0xC2
  · simp [ascii, early] at leads
  by_cases two : byte < 0xE0
  · rw [if_neg ascii, if_neg early, if_pos two] at leads
    exact .inr (.inl ⟨by omega, by omega, (Option.some.inj leads).symm⟩)
  by_cases three : byte < 0xF0
  · refine .inr (.inr (.inl ?_))
    rw [if_neg ascii, if_neg early, if_neg two] at leads
    split at leads
    · exact ⟨0xA0, 0xBF, by omega, by omega, by simp_all, by omega⟩
    · split at leads
      · exact ⟨0x80, 0x9F, by omega, by omega, by simp_all, by omega⟩
      · exact ⟨0x80, 0xBF, by omega, by omega, (Option.some.inj leads).symm, by omega⟩
  · refine .inr (.inr (.inr ?_))
    rw [if_neg ascii, if_neg early, if_neg two, if_neg (by omega), if_neg (by omega),
      if_neg three] at leads
    split at leads
    · exact ⟨0x90, 0xBF, by omega, by omega, by simp_all, by omega⟩
    · split at leads
      · exact ⟨0x80, 0xBF, by omega, by omega, (Option.some.inj leads).symm, by omega⟩
      · split at leads
        · exact ⟨0x80, 0x8F, by omega, by omega, by simp_all, by omega⟩
        · contradiction

/-- A following byte is read in its range. -/
theorem followers_eq_glyph_cons {code low high : Nat} {ranges : List (Nat × Nat)}
    {bytes rest : List UInt8} {value : Char}
    (read : followers code ((low, high) :: ranges) bytes = .glyph value rest) :
    ∃ byte tail, bytes = byte :: tail ∧ low ≤ byte.toNat ∧ byte.toNat ≤ high ∧
      followers (code * 64 + (byte.toNat - 0x80)) ranges tail = .glyph value rest := by
  cases bytes with
  | nil => simp [followers] at read
  | cons byte tail =>
      simp only [followers] at read
      split at read
      · rename_i inside
        exact ⟨byte, tail, rfl, inside.1, inside.2, read⟩
      · simp at read

theorem ofNat_eq {byte : UInt8} {value : Nat} (same : value = byte.toNat) :
    UInt8.ofNat value = byte := by
  rw [same, UInt8.ofNat_toNat]

section Codes

variable {first second third fourth : UInt8} {code : Nat}

theorem code_of_two (low : 0xC2 ≤ first.toNat) (high : first.toNat ≤ 0xDF)
    (above : 0x80 ≤ second.toNat) (below : second.toNat ≤ 0xBF)
    (point : code = (first.toNat - 0xC0) * 64 + (second.toNat - 0x80)) :
    String.utf8EncodeChar (Char.ofNat code) = [first, second] := by
  have lead : code / 64 % 32 + 0xC0 = first.toNat := by omega
  have next : code % 64 + 0x80 = second.toNat := by omega
  rw [utf8EncodeChar_ofNat (.inl (by omega)), if_neg (by omega), if_pos (by omega),
    ofNat_eq lead, ofNat_eq next]

theorem code_of_three (low : 0xE0 ≤ first.toNat) (high : first.toNat ≤ 0xEF)
    (above : 0x80 ≤ second.toNat) (below : second.toNat ≤ 0xBF)
    (noShorter : first.toNat = 0xE0 → 0xA0 ≤ second.toNat)
    (noSurrogate : first.toNat = 0xED → second.toNat ≤ 0x9F)
    (lastAbove : 0x80 ≤ third.toNat) (lastBelow : third.toNat ≤ 0xBF)
    (point : code =
      ((first.toNat - 0xE0) * 64 + (second.toNat - 0x80)) * 64 + (third.toNat - 0x80)) :
    String.utf8EncodeChar (Char.ofNat code) = [first, second, third] := by
  have valid : code.isValidChar := by
    unfold Nat.isValidChar
    omega
  have lead : code / 4096 % 16 + 0xE0 = first.toNat := by omega
  have next : code / 64 % 64 + 0x80 = second.toNat := by omega
  have last : code % 64 + 0x80 = third.toNat := by omega
  rw [utf8EncodeChar_ofNat valid, if_neg (by omega), if_neg (by omega), if_pos (by omega),
    ofNat_eq lead, ofNat_eq next, ofNat_eq last]

theorem code_of_four (low : 0xF0 ≤ first.toNat) (high : first.toNat ≤ 0xF4)
    (above : 0x80 ≤ second.toNat) (below : second.toNat ≤ 0xBF)
    (noShorter : first.toNat = 0xF0 → 0x90 ≤ second.toNat)
    (noLarger : first.toNat = 0xF4 → second.toNat ≤ 0x8F)
    (nextAbove : 0x80 ≤ third.toNat) (nextBelow : third.toNat ≤ 0xBF)
    (lastAbove : 0x80 ≤ fourth.toNat) (lastBelow : fourth.toNat ≤ 0xBF)
    (point : code =
      (((first.toNat - 0xF0) * 64 + (second.toNat - 0x80)) * 64 + (third.toNat - 0x80)) * 64 +
        (fourth.toNat - 0x80)) :
    String.utf8EncodeChar (Char.ofNat code) = [first, second, third, fourth] := by
  have valid : code.isValidChar := .inr ⟨by omega, by omega⟩
  have lead : code / 262144 % 8 + 0xF0 = first.toNat := by omega
  have next : code / 4096 % 64 + 0x80 = second.toNat := by omega
  have further : code / 64 % 64 + 0x80 = third.toNat := by omega
  have last : code % 64 + 0x80 = fourth.toNat := by omega
  rw [utf8EncodeChar_ofNat valid, if_neg (by omega), if_neg (by omega), if_neg (by omega),
    ofNat_eq lead, ofNat_eq next, ofNat_eq further, ofNat_eq last]

end Codes

/-- The bytes that are read as a character are its code. -/
theorem eq_code_of_front {bytes rest : List UInt8} {value : Char}
    (read : front bytes = .glyph value rest) : bytes = String.utf8EncodeChar value ++ rest := by
  cases bytes with
  | nil => simp [front] at read
  | cons first others =>
      simp only [front] at read
      cases leads : lead? first.toNat with
      | none => simp [leads] at read
      | some announced =>
          rw [leads] at read
          obtain ⟨ascii, rfl⟩ | ⟨low, high, rfl⟩ |
            ⟨least, greatest, low, high, rfl, bounds⟩ | ⟨least, greatest, low, high, rfl, bounds⟩ :=
              lead?_cases leads
          · obtain ⟨rfl, rfl⟩ := Front.glyph.inj read
            rw [utf8EncodeChar_ofNat (.inl (Nat.lt_of_le_of_lt ascii (by decide))), if_pos ascii,
              ofNat_eq rfl]
            rfl
          · obtain ⟨second, tail, rfl, above, below, read⟩ := followers_eq_glyph_cons read
            obtain ⟨rfl, rfl⟩ := Front.glyph.inj read
            rw [code_of_two low high above below rfl]
            rfl
          · obtain ⟨second, tail, rfl, above, below, read⟩ := followers_eq_glyph_cons read
            obtain ⟨third, tail, rfl, lastAbove, lastBelow, read⟩ := followers_eq_glyph_cons read
            obtain ⟨rfl, rfl⟩ := Front.glyph.inj read
            rw [code_of_three low high (by omega) (by omega) (by omega) (by omega) lastAbove
              lastBelow rfl]
            rfl
          · obtain ⟨second, tail, rfl, above, below, read⟩ := followers_eq_glyph_cons read
            obtain ⟨third, tail, rfl, nextAbove, nextBelow, read⟩ := followers_eq_glyph_cons read
            obtain ⟨fourth, tail, rfl, lastAbove, lastBelow, read⟩ := followers_eq_glyph_cons read
            obtain ⟨rfl, rfl⟩ := Front.glyph.inj read
            rw [code_of_four low high (by omega) (by omega) (by omega) (by omega) nextAbove
              nextBelow lastAbove lastBelow rfl]
            rfl

/-! ## Runs that are replaced -/

/-- Following bytes exist for all ranges that announce any. -/
theorem followers_least {ranges : List (Nat × Nat)}
    (possible : ∀ range ∈ ranges, range.1 ≤ range.2 ∧ range.2 < 256) (code : Nat) :
    ∃ value, followers code ranges (ranges.map fun range => UInt8.ofNat range.1) =
      .glyph value [] := by
  induction ranges generalizing code with
  | nil => exact ⟨_, rfl⟩
  | cons range ranges inductionHypothesis =>
      obtain ⟨⟨inside, small⟩, others⟩ := List.forall_mem_cons.mp possible
      obtain ⟨value, read⟩ := inductionHypothesis others (code * 64 + (range.1 - 0x80))
      exact ⟨value, (followers_cons (Nat.le_refl _) inside (by omega)).trans read⟩

/-- Bytes that end too early can be completed to a character. -/
theorem followers_completable {code : Nat} {ranges : List (Nat × Nat)} {seen : List UInt8}
    (possible : ∀ range ∈ ranges, range.1 ≤ range.2 ∧ range.2 < 256)
    (ended : followers code ranges seen = .unfinished) :
    ∃ more value, followers code ranges (seen ++ more) = .glyph value [] := by
  induction ranges generalizing code seen with
  | nil => simp [followers] at ended
  | cons range ranges inductionHypothesis =>
      cases seen with
      | nil =>
          obtain ⟨value, read⟩ := followers_least possible code
          exact ⟨_, value, read⟩
      | cons byte seen =>
          simp only [followers] at ended
          split at ended
          · rename_i inside
            obtain ⟨more, value, read⟩ :=
              inductionHypothesis (List.forall_mem_cons.mp possible).2 ended
            refine ⟨more, value, ?_⟩
            simp only [List.cons_append, followers]
            rw [if_pos inside, read]
          · simp at ended

theorem possible_of_lead? {byte : Nat} {announced : Lead} (leads : lead? byte = some announced) :
    ∀ range ∈ announced.following, range.1 ≤ range.2 ∧ range.2 < 256 := by
  obtain ⟨-, rfl⟩ | ⟨-, -, rfl⟩ | ⟨least, greatest, -, -, rfl, bounds⟩ |
    ⟨least, greatest, -, -, rfl, bounds⟩ := lead?_cases leads <;> simp <;> omega

theorem begins_of_unfinished {bytes : List UInt8} (read : front bytes = .unfinished) :
    Begins bytes := by
  cases bytes with
  | nil => simp [front] at read
  | cons first others =>
      simp only [front] at read
      cases leads : lead? first.toNat with
      | none => simp [leads] at read
      | some announced =>
          rw [leads] at read
          obtain ⟨more, value, completed⟩ :=
            followers_completable (possible_of_lead? leads) read
          have whole : front (first :: others ++ more) = .glyph value [] := by
            simp only [List.cons_append, front, leads, completed]
          refine ⟨value, more, ?_⟩
          rw [eq_code_of_front whole, List.append_nil]

/-- What cannot be continued breaks off at one byte, whatever follows that byte. -/
theorem followers_eq_malformed {code : Nat} {ranges : List (Nat × Nat)} {bytes rest : List UInt8}
    (read : followers code ranges bytes = .malformed rest) :
    ∃ seen byte others, bytes = seen ++ rest ∧ rest = byte :: others ∧
      followers code ranges seen = .unfinished ∧
      ∀ more, followers code ranges (seen ++ byte :: more) = .malformed (byte :: more) := by
  induction ranges generalizing code bytes with
  | nil => simp [followers] at read
  | cons range ranges inductionHypothesis =>
      cases bytes with
      | nil => simp [followers] at read
      | cons byte bytes =>
          simp only [followers] at read
          split at read
          · rename_i inside
            obtain ⟨seen, breaking, others, rfl, rfl, ended, breaks⟩ := inductionHypothesis read
            refine ⟨byte :: seen, breaking, others, rfl, rfl, ?_, ?_⟩
            · simp only [followers]
              rw [if_pos inside, ended]
            · intro more
              simp only [List.cons_append, followers]
              rw [if_pos inside, breaks more]
          · rename_i outside
            obtain rfl := Front.malformed.inj read
            refine ⟨[], byte, bytes, rfl, rfl, rfl, fun more => ?_⟩
            simp only [List.nil_append, followers]
            rw [if_neg outside]

theorem not_begins_of_malformed {bytes rest : List UInt8} (read : front bytes = .malformed rest) :
    ¬ Begins bytes := by
  rintro ⟨glyph, more, whole⟩
  have broken := front_append_of_malformed read more
  have fine := front_utf8EncodeChar glyph []
  rw [List.append_nil, ← whole, broken] at fine
  contradiction

theorem not_code_prefix {bytes : List UInt8} (unread : ∀ value rest, front bytes ≠ .glyph value rest)
    (glyph : Char) : ¬ String.utf8EncodeChar glyph <+: bytes := by
  rintro ⟨rest, rfl⟩
  exact unread glyph rest (front_utf8EncodeChar glyph rest)

/-- An ill-formed run that is read is a maximal one: with one byte more it is still ill-formed. -/
theorem broken_of_malformed {bytes rest : List UInt8} (read : front bytes = .malformed rest) :
    ∃ bad, bytes = bad ++ rest ∧ Broken bad rest := by
  have unreadable : ∀ glyph, ¬ String.utf8EncodeChar glyph <+: bytes :=
    not_code_prefix (by simp [read])
  cases bytes with
  | nil => simp [front] at read
  | cons first others =>
      simp only [front] at read
      cases leads : lead? first.toNat with
      | none =>
          rw [leads] at read
          obtain rfl := Front.malformed.inj read
          refine ⟨[first], rfl, by simp, unreadable, .inr rfl, ?_⟩
          intro longer within more
          obtain ⟨tail, rfl⟩ := List.prefix_of_prefix_length_le
            (List.prefix_append [first] others) within (Nat.le_of_lt more)
          have ill : front (first :: tail) = .malformed tail := by simp only [front, leads]
          exact not_begins_of_malformed ill
      | some announced =>
          rw [leads] at read
          obtain ⟨seen, byte, others, rfl, rfl, ended, breaks⟩ := followers_eq_malformed read
          have started : front (first :: seen) = .unfinished := by simp only [front, leads, ended]
          refine ⟨first :: seen, rfl, by simp, unreadable, .inl (begins_of_unfinished started), ?_⟩
          intro longer within more
          have next : first :: seen ++ [byte] <+: first :: (seen ++ byte :: others) :=
            ⟨others, by simp⟩
          obtain ⟨tail, rfl⟩ := List.prefix_of_prefix_length_le next within (by simpa [Nat.succ_le_iff] using more)
          have ill : front (first :: seen ++ [byte] ++ tail) = .malformed (byte :: tail) := by
            simp only [List.cons_append, front, leads, List.append_assoc, List.nil_append, breaks]
          exact not_begins_of_malformed ill

theorem broken_of_unfinished {bytes : List UInt8} (read : front bytes = .unfinished) :
    Broken bytes [] where
  nonempty := by
    rintro rfl
    simp [front] at read
  unreadable := not_code_prefix (by simp [read])
  promising := .inl (begins_of_unfinished read)
  maximal := by
    intro longer front more
    have bound := front.length_le
    rw [List.append_nil] at bound
    omega

/-! ## The decoder -/

theorem decodeLossy_of_glyph {bytes rest : List UInt8} {value : Char}
    (read : front bytes = .glyph value rest) :
    decodeLossy bytes = value :: decodeLossy rest := by
  simp only [decodeLossy, decodeOpen_of_glyph read]
  split <;> rfl

theorem decodeLossy_of_malformed {bytes rest : List UInt8}
    (read : front bytes = .malformed rest) :
    decodeLossy bytes = replacement :: decodeLossy rest := by
  simp only [decodeLossy, decodeOpen_of_malformed read]
  split <;> rfl

theorem decodes_decodeLossy (bytes : List UInt8) : Decodes bytes (decodeLossy bytes) := by
  induction bytes using decodeOpen.induct with
  | case1 bytes read =>
      obtain rfl := eq_nil_of_front_eq_nothing read
      simpa [decodeLossy] using Decodes.nil
  | case2 bytes read =>
      have some : bytes ≠ [] := (broken_of_unfinished read).nonempty
      have last := Decodes.broken (broken_of_unfinished read) .nil
      simpa [decodeLossy, decodeOpen_of_unfinished read, some] using last
  | case3 bytes value rest read shorter values carried decoded inductionHypothesis =>
      rw [decodeLossy_of_glyph read, eq_code_of_front read]
      exact .glyph value inductionHypothesis
  | case4 bytes rest read shorter values carried decoded inductionHypothesis =>
      obtain ⟨bad, rfl, broken⟩ := broken_of_malformed read
      rw [decodeLossy_of_malformed read]
      exact .broken broken inductionHypothesis

/-- The decoder yields the text that bytes stand for, and they stand for no other. -/
theorem decodes_iff {bytes : List UInt8} {text : List Char} :
    Decodes bytes text ↔ decodeLossy bytes = text := by
  constructor
  · intro decodes
    induction decodes with
    | nil => simp [decodeLossy]
    | glyph value others inductionHypothesis =>
        rw [decodeLossy_of_glyph (front_utf8EncodeChar value _), inductionHypothesis]
    | @broken bad rest text run others inductionHypothesis =>
        rw [← inductionHypothesis]
        cases read : front (bad ++ rest) with
        | nothing =>
            have empty := eq_nil_of_front_eq_nothing read
            exact absurd (List.append_eq_nil_iff.mp empty).1 run.nonempty
        | glyph value behind =>
            refine absurd ?_ (run.unreadable value)
            rw [eq_code_of_front read]
            exact List.prefix_append _ _
        | malformed behind =>
            obtain ⟨other, same, broken⟩ := broken_of_malformed read
            obtain rfl := run.unique broken same
            obtain rfl := List.append_cancel_left same
            exact decodeLossy_of_malformed read
        | unfinished =>
            have all := run.unique (broken_of_unfinished read) (by simp)
            obtain rfl : rest = [] := by simpa using all
            rw [decodeLossy, decodeOpen_of_unfinished read]
            simp [run.nonempty, decodeLossy]
  · rintro rfl
    exact decodes_decodeLossy bytes

/-- A sequence that breaks off, a byte that begins nothing, and a sequence that is not complete. -/
example : decodeLossy [0xE2, 0x82, 0x28, 0xFF, 0xF0, 0x9F] =
    [replacement, '(', replacement, replacement] := by decide +kernel

end TapeMachine.Text.Utf8
