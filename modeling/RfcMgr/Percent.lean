import RfcMgr.KeyValueLines
import Mathlib.Tactic.IntervalCases
import Mathlib.Tactic.NormNum

/-! Percent-encoding of byte strings and query strings of `name=value` pieces. A byte is a character
below 256. -/

namespace Percent

open KeyValueLines (splitEntry splitEntry_append)

/-- The characters that stand for themselves. -/
def unreserved (c : Char) : Bool := c.isAlphanum || c == '-' || c == '.' || c == '_' || c == '~'

def hexDigit (n : Nat) : Char := Char.ofNat (if n < 10 then 48 + n else 55 + n)

def hexValue (c : Char) : Option Nat :=
  if '0' ≤ c ∧ c ≤ '9' then some (c.toNat - 48)
  else if 'A' ≤ c ∧ c ≤ 'F' then some (c.toNat - 55)
  else if 'a' ≤ c ∧ c ≤ 'f' then some (c.toNat - 87)
  else none

def encodeChar (c : Char) : List Char :=
  if unreserved c then [c] else ['%', hexDigit (c.toNat / 16), hexDigit (c.toNat % 16)]

/-- Keeps the unreserved characters and writes every other byte as `%XX`. -/
def encode (s : List Char) : List Char := s.flatMap encodeChar

/-- The byte of two hexadecimal digits. -/
def hexByte (hi lo : Char) : Option Char := do
  let high ← hexValue hi
  let low ← hexValue lo
  return Char.ofNat (16 * high + low)

/-- Fails at a percent sign that two hexadecimal digits do not follow. -/
def decode : List Char → Option (List Char)
  | [] => some []
  | '%' :: hi :: lo :: rest => do
      let c ← hexByte hi lo
      return c :: (← decode rest)
  | c :: rest => if c = '%' then none else (decode rest).map (c :: ·)

theorem hexValue_hexDigit {n : Nat} (h : n < 16) : hexValue (hexDigit n) = some n := by
  interval_cases n <;> decide

theorem unreserved_hexDigit {n : Nat} (h : n < 16) : unreserved (hexDigit n) = true := by
  interval_cases n <;> decide

/-- What is written for a byte is unreserved or a percent sign. -/
theorem mem_encode {s : List Char} {c : Char} (hbytes : ∀ b ∈ s, b.toNat < 256)
    (h : c ∈ encode s) : unreserved c = true ∨ c = '%' := by
  obtain ⟨b, hb, hc⟩ := List.mem_flatMap.mp h
  have hlt := hbytes b hb
  unfold encodeChar at hc
  split at hc
  next hkept =>
    rw [List.mem_singleton.mp hc]
    exact Or.inl hkept
  next =>
    simp only [List.mem_cons, List.not_mem_nil, or_false] at hc
    rcases hc with rfl | rfl | rfl
    · exact Or.inr rfl
    · exact Or.inl (unreserved_hexDigit (by omega))
    · exact Or.inl (unreserved_hexDigit (by omega))

theorem notMem_encode {s : List Char} {c : Char} (hbytes : ∀ b ∈ s, b.toNat < 256)
    (hc : unreserved c = false) (hne : c ≠ '%') : c ∉ encode s := fun h => by
  rcases mem_encode hbytes h with hkept | heq
  · rw [hc] at hkept
    cases hkept
  · exact hne heq

theorem decode_encodeChar {c : Char} (hbyte : c.toNat < 256) (rest : List Char) :
    decode (encodeChar c ++ rest) = (decode rest).map (c :: ·) := by
  unfold encodeChar
  split
  next hkept =>
    have hne : c ≠ '%' := fun heq => by
      rw [heq] at hkept
      cases hkept
    rw [List.singleton_append, decode, if_neg hne]
    intro hi lo tail heq _
    exact absurd heq hne
  next =>
    have hchar : Char.ofNat (16 * (c.toNat / 16) + c.toNat % 16) = c := by
      rw [show 16 * (c.toNat / 16) + c.toNat % 16 = c.toNat by omega]
      exact Char.ofNat_toNat c
    simp only [List.cons_append, List.nil_append, decode, hexByte,
      hexValue_hexDigit (show c.toNat / 16 < 16 by omega),
      hexValue_hexDigit (show c.toNat % 16 < 16 by omega), Option.bind_eq_bind, Option.bind_some,
      Option.pure_def, hchar]
    cases decode rest with
    | none => rfl
    | some tail => rfl

theorem decode_encode {s : List Char} (hbytes : ∀ b ∈ s, b.toNat < 256) :
    decode (encode s) = some s := by
  induction s with
  | nil => rfl
  | cons c s ih =>
      have htail := ih fun b hb => hbytes b (List.mem_cons_of_mem c hb)
      rw [encode, List.flatMap_cons, decode_encodeChar (hbytes c List.mem_cons_self)]
      rw [encode] at htail
      rw [htail]
      rfl

/-- The fields of a query string, each value decoded. -/
def decodeQuery (query : List Char) : Option (List (List Char × List Char)) :=
  (query.splitOn '&').mapM fun piece => do
    let (name, value) ← splitEntry piece
    return (name, ← decode value)

def encodeField (field : List Char × List Char) : List Char :=
  field.1 ++ '=' :: encode field.2

def encodeQuery (fields : List (List Char × List Char)) : List Char :=
  ['&'].intercalate (fields.map encodeField)

/-- A field the query string keeps apart from its neighbours. -/
structure Plain (field : List Char × List Char) : Prop where
  no_equals : '=' ∉ field.1
  no_ampersand : '&' ∉ field.1
  bytes : ∀ b ∈ field.2, b.toNat < 256

theorem Plain.notMem_encodeField {field : List Char × List Char} (h : Plain field) :
    '&' ∉ encodeField field := by
  have hvalue : '&' ∉ encode field.2 := notMem_encode h.bytes rfl (by decide)
  simp [encodeField, h.no_ampersand, hvalue]

/-- Decoding a query string gives back its fields, in their order. -/
theorem decodeQuery_encodeQuery {fields : List (List Char × List Char)} (hne : fields ≠ [])
    (h : ∀ field ∈ fields, Plain field) : decodeQuery (encodeQuery fields) = some fields := by
  have hsplit : (encodeQuery fields).splitOn '&' = fields.map encodeField := by
    apply List.splitOn_intercalate
    · intro piece hpiece
      obtain ⟨field, hfield, rfl⟩ := List.mem_map.mp hpiece
      exact (h field hfield).notMem_encodeField
    · exact fun hnil => hne (List.map_eq_nil_iff.mp hnil)
  rw [decodeQuery, hsplit]
  clear hsplit hne
  induction fields with
  | nil => rfl
  | cons field fields ih =>
      have hfield := h field List.mem_cons_self
      have htail := ih fun other hother => h other (List.mem_cons_of_mem _ hother)
      rw [List.map_cons, List.mapM_cons, htail, encodeField, splitEntry_append hfield.no_equals]
      simp only [Option.bind_eq_bind, Option.bind_some, decode_encode hfield.bytes, Option.pure_def]

end Percent
