import TapeMachine.Text.Utf8

/-!
Contract: decoding in pieces, and decoding what was encoded.

Owns: what more bytes behind a sequence do to reading it, decoding bytes in two parts with the
unfinished sequence handed on, and the decoding of encoded texts.

Encoding is that of the library, so that decoding is its inverse in whatever way a text has been
turned into bytes.
-/

namespace TapeMachine.Text.Utf8

/-! ## More bytes behind a sequence -/

theorem followers_append_of_glyph {code : Nat} {ranges : List (Nat × Nat)}
    {bytes rest : List UInt8} {value : Char} (read : followers code ranges bytes = .glyph value rest)
    (more : List UInt8) : followers code ranges (bytes ++ more) = .glyph value (rest ++ more) := by
  induction ranges generalizing code bytes with
  | nil =>
      obtain ⟨rfl, rfl⟩ := Front.glyph.inj read
      rfl
  | cons range ranges inductionHypothesis =>
      cases bytes with
      | nil => simp [followers] at read
      | cons byte bytes =>
          simp only [followers, List.cons_append] at read ⊢
          split at read
          · rename_i inside
            rw [if_pos inside]
            exact inductionHypothesis read
          · simp at read

theorem followers_append_of_malformed {code : Nat} {ranges : List (Nat × Nat)}
    {bytes rest : List UInt8} (read : followers code ranges bytes = .malformed rest)
    (more : List UInt8) : followers code ranges (bytes ++ more) = .malformed (rest ++ more) := by
  induction ranges generalizing code bytes with
  | nil => simp [followers] at read
  | cons range ranges inductionHypothesis =>
      cases bytes with
      | nil => simp [followers] at read
      | cons byte bytes =>
          simp only [followers, List.cons_append] at read ⊢
          split at read
          · rename_i inside
            rw [if_pos inside]
            exact inductionHypothesis read
          · rename_i outside
            obtain rfl := Front.malformed.inj read
            rw [if_neg outside]
            rfl

theorem front_append_of_glyph {bytes rest : List UInt8} {value : Char}
    (read : front bytes = .glyph value rest) (more : List UInt8) :
    front (bytes ++ more) = .glyph value (rest ++ more) := by
  cases bytes with
  | nil => simp [front] at read
  | cons byte bytes =>
      simp only [front, List.cons_append] at read ⊢
      cases announced : lead? byte.toNat with
      | none => simp [announced] at read
      | some lead =>
          rw [announced] at read
          exact followers_append_of_glyph read more

theorem front_append_of_malformed {bytes rest : List UInt8}
    (read : front bytes = .malformed rest) (more : List UInt8) :
    front (bytes ++ more) = .malformed (rest ++ more) := by
  cases bytes with
  | nil => simp [front] at read
  | cons byte bytes =>
      simp only [front, List.cons_append] at read ⊢
      cases announced : lead? byte.toNat with
      | none =>
          rw [announced] at read
          obtain rfl := Front.malformed.inj read
          rfl
      | some lead =>
          rw [announced] at read
          exact followers_append_of_malformed read more

/-! ## Decoding in two parts -/

theorem decodeOpen_of_glyph {bytes rest : List UInt8} {value : Char}
    (read : front bytes = .glyph value rest) :
    decodeOpen bytes = (value :: (decodeOpen rest).1, (decodeOpen rest).2) := by
  rw [decodeOpen]
  split <;> simp_all

theorem decodeOpen_of_malformed {bytes rest : List UInt8} (read : front bytes = .malformed rest) :
    decodeOpen bytes = (replacement :: (decodeOpen rest).1, (decodeOpen rest).2) := by
  rw [decodeOpen]
  split <;> simp_all

theorem decodeOpen_of_unfinished {bytes : List UInt8} (read : front bytes = .unfinished) :
    decodeOpen bytes = ([], bytes) := by
  rw [decodeOpen]
  split <;> simp_all

@[simp] theorem decodeOpen_nil : decodeOpen [] = ([], []) := by
  rw [decodeOpen]
  rfl

theorem eq_nil_of_front_eq_nothing {bytes : List UInt8} (read : front bytes = .nothing) :
    bytes = [] := by
  cases bytes with
  | nil => rfl
  | cons byte rest =>
      -- A leading byte gives a sequence, an error, or the need of more bytes.
      have followed : ∀ code ranges (rest : List UInt8),
          followers code ranges rest ≠ .nothing := by
        intro code ranges rest
        induction ranges generalizing code rest with
        | nil => simp [followers]
        | cons range ranges inductionHypothesis =>
            cases rest with
            | nil => simp [followers]
            | cons byte rest =>
                simp only [followers]
                split
                · exact inductionHypothesis _ rest
                · simp
      simp only [front] at read
      split at read
      · simp at read
      · exact absurd read (followed _ _ rest)

/-- Decoding goes on with the bytes that were carried, as if all bytes had come at once. -/
theorem decodeOpen_append (bytes more : List UInt8) :
    decodeOpen (bytes ++ more) =
      ((decodeOpen bytes).1 ++ (decodeOpen ((decodeOpen bytes).2 ++ more)).1,
        (decodeOpen ((decodeOpen bytes).2 ++ more)).2) := by
  induction bytes using decodeOpen.induct with
  | case1 bytes read =>
      obtain rfl := eq_nil_of_front_eq_nothing read
      simp
  | case2 bytes read => simp [decodeOpen_of_unfinished read]
  | case3 bytes value rest read shorter values carried decoded inductionHypothesis =>
      rw [decodeOpen_of_glyph read, decodeOpen_of_glyph (front_append_of_glyph read more),
        inductionHypothesis]
      rfl
  | case4 bytes rest read shorter values carried decoded inductionHypothesis =>
      rw [decodeOpen_of_malformed read, decodeOpen_of_malformed (front_append_of_malformed read more),
        inductionHypothesis]
      rfl

theorem decodeLossy_append (bytes more : List UInt8) :
    decodeLossy (bytes ++ more) =
      (decodeOpen bytes).1 ++ decodeLossy ((decodeOpen bytes).2 ++ more) := by
  simp only [decodeLossy, decodeOpen_append bytes more]
  split <;> simp

/-! ## Decoding what was encoded -/

/-- A following byte in its range adds six bits. -/
theorem followers_cons {code low high : Nat} {ranges : List (Nat × Nat)} {byte : Nat}
    {rest : List UInt8} (above : low ≤ byte) (below : byte ≤ high) (small : byte < 256) :
    followers code ((low, high) :: ranges) (UInt8.ofNat byte :: rest) =
      followers (code * 64 + (byte - 0x80)) ranges rest := by
  have same : (UInt8.ofNat byte).toNat = byte := by simpa using small
  simp only [followers, same]
  exact if_pos ⟨above, below⟩

theorem front_cons {lead payload : Nat} {following : List (Nat × Nat)} (small : lead < 256)
    (leads : lead? lead = some ⟨payload, following⟩) (rest : List UInt8) :
    front (UInt8.ofNat lead :: rest) = followers payload following rest := by
  have same : (UInt8.ofNat lead).toNat = lead := by simpa using small
  simp only [front, same, leads]

/-- The second byte of three lies in the range that the first announces: codes below 2048 are
written in two bytes, and surrogates are no characters. -/
theorem lead?_of_three {code : Nat} (low : 0x800 ≤ code) (high : code < 0x10000)
    (noSurrogate : code < 0xD800 ∨ 0xDFFF < code) :
    ∃ least greatest, lead? (code / 4096 % 16 + 224) =
        some ⟨code / 4096, [(least, greatest), continuation]⟩ ∧
      least ≤ code / 64 % 64 + 128 ∧ code / 64 % 64 + 128 ≤ greatest := by
  have first : code / 4096 % 16 + 224 = code / 4096 + 0xE0 := by omega
  rw [first]
  unfold lead?
  by_cases zero : code / 4096 = 0
  · exact ⟨0xA0, 0xBF, by simp [zero], by omega, by omega⟩
  · by_cases thirteen : code / 4096 = 0xD
    · exact ⟨0x80, 0x9F, by simp [thirteen], by omega, by omega⟩
    · refine ⟨0x80, 0xBF, ?_, by omega, by omega⟩
      rw [if_neg (by omega), if_neg (by omega), if_neg (by omega), if_neg (by omega),
        if_neg (by omega), if_pos (by omega), Nat.add_sub_cancel]
      rfl

/-- The second byte of four lies in the range that the first announces: codes below 65536 are
written in three bytes, and the last code point is 1114111. -/
theorem lead?_of_four {code : Nat} (low : 0x10000 ≤ code) (high : code < 0x110000) :
    ∃ least greatest, lead? (code / 262144 % 8 + 240) =
        some ⟨code / 262144, [(least, greatest), continuation, continuation]⟩ ∧
      least ≤ code / 4096 % 64 + 128 ∧ code / 4096 % 64 + 128 ≤ greatest := by
  have first : code / 262144 % 8 + 240 = code / 262144 + 0xF0 := by omega
  rw [first]
  unfold lead?
  by_cases zero : code / 262144 = 0
  · exact ⟨0x90, 0xBF, by simp [zero], by omega, by omega⟩
  · by_cases four : code / 262144 = 4
    · exact ⟨0x80, 0x8F, by simp [four], by omega, by omega⟩
    · refine ⟨0x80, 0xBF, ?_, by omega, by omega⟩
      rw [if_neg (by omega), if_neg (by omega), if_neg (by omega), if_neg (by omega),
        if_neg (by omega), if_neg (by omega), if_neg (by omega), if_pos (by omega),
        Nat.add_sub_cancel]
      rfl

theorem front_utf8EncodeChar (glyph : Char) (rest : List UInt8) :
    front (String.utf8EncodeChar glyph ++ rest) = .glyph glyph rest := by
  have valid : glyph.toNat < 0xD800 ∨ 0xDFFF < glyph.toNat ∧ glyph.toNat < 0x110000 := glyph.valid
  have back : ∀ code, code = glyph.toNat → Front.glyph (Char.ofNat code) rest = .glyph glyph rest := by
    rintro code rfl
    rw [Char.ofNat_toNat]
  unfold String.utf8EncodeChar
  rw [show glyph.val.toNat = glyph.toNat from rfl]
  generalize glyph.toNat = code at valid back
  dsimp only
  split
  · rename_i one
    have leads : lead? code = some ⟨code, []⟩ := if_pos (by omega)
    rw [List.singleton_append, front_cons (by omega) leads]
    exact back code rfl
  · split
    · rename_i two
      have leads : lead? (code / 64 % 32 + 192) = some ⟨code / 64, [continuation]⟩ := by
        have first : code / 64 % 32 + 192 = code / 64 + 0xC0 := by omega
        rw [first, lead?, if_neg (by omega), if_neg (by omega), if_pos (by omega),
          Nat.add_sub_cancel]
      rw [List.cons_append, List.singleton_append, front_cons (by omega) leads, continuation,
        followers_cons (by omega) (by omega) (by omega)]
      exact back _ (by omega)
    · split
      · rename_i three
        obtain ⟨least, greatest, leads, above, below⟩ :=
          @lead?_of_three code (by omega) (by omega) (by omega)
        simp only [List.cons_append, List.nil_append]
        rw [front_cons (by omega) leads, followers_cons above below (by omega), continuation,
          followers_cons (by omega) (by omega) (by omega)]
        exact back _ (by omega)
      · obtain ⟨least, greatest, leads, above, below⟩ :=
          @lead?_of_four code (by omega) (by omega)
        simp only [List.cons_append, List.nil_append]
        rw [front_cons (by omega) leads, followers_cons above below (by omega), continuation,
          followers_cons (by omega) (by omega) (by omega),
          followers_cons (by omega) (by omega) (by omega)]
        exact back _ (by omega)

/-- Decoding the bytes of a text leads back to the text. -/
theorem decodeLossy_utf8EncodeChar (text : List Char) :
    decodeLossy (text.flatMap String.utf8EncodeChar) = text := by
  have whole : decodeOpen (text.flatMap String.utf8EncodeChar) = (text, []) := by
    induction text with
    | nil => exact decodeOpen_nil
    | cons glyph others inductionHypothesis =>
        rw [List.flatMap_cons, decodeOpen_of_glyph (front_utf8EncodeChar glyph _),
          inductionHypothesis]
  simp [decodeLossy, whole]

end TapeMachine.Text.Utf8
