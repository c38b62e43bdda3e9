/-!
Contract: UTF-8 with replacement of what is not well formed.

Owns: one step of decoding, the decoding of bytes that may still be continued, the decoding of
bytes that are complete, the strict decoding that refuses what is not well formed, and encoding.

A maximal run of bytes that begins a sequence but cannot be continued to one counts as one error
and becomes one replacement character. The byte that breaks a sequence is not part of that run: it
is looked at again as a beginning.
-/

namespace TapeMachine.Text.Utf8

/-- U+FFFD, which stands for bytes that are no character. -/
def replacement : Char :=
  Char.ofNat 0xFFFD

/-- What a leading byte announces: its own share of the code point and the range in which each
following byte has to lie. -/
structure Lead where
  payload : Nat
  following : List (Nat × Nat)
deriving DecidableEq, Repr

/-- The range of a following byte that has no further restriction. -/
def continuation : Nat × Nat :=
  (0x80, 0xBF)

/-- The announcement of a leading byte. The narrower second ranges exclude overlong forms,
surrogates, and code points above U+10FFFF; bytes that begin nothing give `none`. -/
def lead? (byte : Nat) : Option Lead :=
  if byte < 0x80 then some ⟨byte, []⟩
  else if byte < 0xC2 then none
  else if byte < 0xE0 then some ⟨byte - 0xC0, [continuation]⟩
  else if byte = 0xE0 then some ⟨0, [(0xA0, 0xBF), continuation]⟩
  else if byte = 0xED then some ⟨0xD, [(0x80, 0x9F), continuation]⟩
  else if byte < 0xF0 then some ⟨byte - 0xE0, [continuation, continuation]⟩
  else if byte = 0xF0 then some ⟨0, [(0x90, 0xBF), continuation, continuation]⟩
  else if byte < 0xF4 then some ⟨byte - 0xF0, [continuation, continuation, continuation]⟩
  else if byte = 0xF4 then some ⟨4, [(0x80, 0x8F), continuation, continuation]⟩
  else none

inductive Front where
  | nothing
  /-- A well-formed sequence and what follows it. -/
  | glyph (value : Char) (rest : List UInt8)
  /-- A maximal ill-formed run and what follows it. -/
  | malformed (rest : List UInt8)
  /-- The bytes end inside a sequence that could still be completed. -/
  | unfinished
deriving DecidableEq, Repr

/-- Reads the following bytes of a sequence; `code` is the code point so far. -/
def followers (code : Nat) : List (Nat × Nat) → List UInt8 → Front
  | [], rest => .glyph (Char.ofNat code) rest
  | _ :: _, [] => .unfinished
  | (low, high) :: ranges, byte :: rest =>
      if low ≤ byte.toNat ∧ byte.toNat ≤ high then
        followers (code * 64 + (byte.toNat - 0x80)) ranges rest
      else .malformed (byte :: rest)

def front : List UInt8 → Front
  | [] => .nothing
  | byte :: rest =>
      match lead? byte.toNat with
      | none => .malformed rest
      | some announced => followers announced.payload announced.following rest

theorem length_of_followers_eq_glyph {code : Nat} {ranges : List (Nat × Nat)}
    {bytes rest : List UInt8} {value : Char}
    (read : followers code ranges bytes = .glyph value rest) : rest.length ≤ bytes.length := by
  induction ranges generalizing code bytes with
  | nil =>
      simp only [followers, Front.glyph.injEq] at read
      exact Nat.le_of_eq (congrArg List.length read.2.symm)
  | cons range ranges inductionHypothesis =>
      cases bytes with
      | nil => simp [followers] at read
      | cons byte bytes =>
          simp only [followers] at read
          split at read
          · exact Nat.le_succ_of_le (inductionHypothesis read)
          · simp at read

theorem length_of_followers_eq_malformed {code : Nat} {ranges : List (Nat × Nat)}
    {bytes rest : List UInt8}
    (read : followers code ranges bytes = .malformed rest) : rest.length ≤ bytes.length := by
  induction ranges generalizing code bytes with
  | nil => simp [followers] at read
  | cons range ranges inductionHypothesis =>
      cases bytes with
      | nil => simp [followers] at read
      | cons byte bytes =>
          simp only [followers] at read
          split at read
          · exact Nat.le_succ_of_le (inductionHypothesis read)
          · simp only [Front.malformed.injEq] at read
            exact Nat.le_of_eq (congrArg List.length read.symm)

theorem length_lt_of_front_eq_glyph {bytes rest : List UInt8} {value : Char}
    (read : front bytes = .glyph value rest) : rest.length < bytes.length := by
  cases bytes with
  | nil => simp [front] at read
  | cons byte bytes =>
      simp only [front] at read
      split at read
      · simp at read
      · exact Nat.lt_succ_of_le (length_of_followers_eq_glyph read)

theorem length_lt_of_front_eq_malformed {bytes rest : List UInt8}
    (read : front bytes = .malformed rest) : rest.length < bytes.length := by
  cases bytes with
  | nil => simp [front] at read
  | cons byte bytes =>
      simp only [front] at read
      split at read
      · simp only [Front.malformed.injEq] at read
        rw [← read]
        exact Nat.lt_succ_self _
      · exact Nat.lt_succ_of_le (length_of_followers_eq_malformed read)

/-- Characters of bytes that more bytes may follow, and the bytes of a sequence at their end that
is not complete yet. -/
def decodeOpen (bytes : List UInt8) : List Char × List UInt8 :=
  match step : front bytes with
  | .nothing => ([], [])
  | .unfinished => ([], bytes)
  | .glyph value rest =>
      have := length_lt_of_front_eq_glyph step
      let (values, carried) := decodeOpen rest
      (value :: values, carried)
  | .malformed rest =>
      have := length_lt_of_front_eq_malformed step
      let (values, carried) := decodeOpen rest
      (replacement :: values, carried)
termination_by bytes.length

/-- Characters of bytes that nothing follows: an unfinished sequence is one error. -/
def decodeLossy (bytes : List UInt8) : List Char :=
  let (values, carried) := decodeOpen bytes
  if carried = [] then values else values ++ [replacement]

/-- Characters of well-formed bytes, `none` for any others. -/
def decode? (bytes : List UInt8) : Option (List Char) :=
  match step : front bytes with
  | .nothing => some []
  | .unfinished => none
  | .malformed _ => none
  | .glyph value rest =>
      have := length_lt_of_front_eq_glyph step
      (decode? rest).map (value :: ·)
termination_by bytes.length

/-- Every character and every carried byte took at least one byte. -/
theorem length_decodeOpen (bytes : List UInt8) :
    (decodeOpen bytes).1.length + (decodeOpen bytes).2.length ≤ bytes.length := by
  induction bytes using decodeOpen.induct with
  | case1 bytes step =>
      rw [decodeOpen]
      split <;> simp_all
  | case2 bytes step =>
      rw [decodeOpen]
      split <;> simp_all
  | case3 bytes value rest step inductionHypothesis =>
      have shorter := length_lt_of_front_eq_glyph step
      rw [decodeOpen]
      split <;> simp_all
      omega
  | case4 bytes rest step inductionHypothesis =>
      have shorter := length_lt_of_front_eq_malformed step
      rw [decodeOpen]
      split <;> simp_all
      omega

theorem length_decodeLossy (bytes : List UInt8) :
    (decodeLossy bytes).length ≤ bytes.length := by
  have bound := length_decodeOpen bytes
  unfold decodeLossy
  cases carried : (decodeOpen bytes).2 with
  | nil => simp_all
  | cons byte others => simp_all; omega

def encodeGlyph (glyph : Char) : List UInt8 :=
  let code := glyph.toNat
  let tail (unit : Nat) : UInt8 := UInt8.ofNat (0x80 + code / unit % 64)
  if code < 0x80 then [UInt8.ofNat code]
  else if code < 0x800 then [UInt8.ofNat (0xC0 + code / 64), tail 1]
  else if code < 0x10000 then [UInt8.ofNat (0xE0 + code / 4096), tail 64, tail 1]
  else [UInt8.ofNat (0xF0 + code / 262144), tail 4096, tail 64, tail 1]

def encode (text : List Char) : List UInt8 :=
  text.flatMap encodeGlyph

end TapeMachine.Text.Utf8
