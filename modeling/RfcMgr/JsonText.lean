import RfcMgr.Percent

/-! A parser for JSON texts over bytes, and what it makes of a string that was put between quotes
without escaping. A byte is a character below 256; those above 127 are passed on as they are. -/

namespace JsonText

open Percent (hexValue)

inductive Value where
  | null
  | bool (value : Bool)
  /-- The digits as they stand. -/
  | number (digits : List Char)
  | string (value : List Char)
  | array (items : List Value)
  | object (members : List (List Char × Value))

/-! ### Strings -/

def hexUnit (a b c d : Char) : Option Nat := do
  return 4096 * (← hexValue a) + 256 * (← hexValue b) + 16 * (← hexValue c) + (← hexValue d)

/-- The UTF-8 bytes of a code point. -/
def utf8 (n : Nat) : List Char :=
  if n < 128 then [Char.ofNat n]
  else if n < 2048 then [Char.ofNat (192 + n / 64), Char.ofNat (128 + n % 64)]
  else if n < 65536 then
    [Char.ofNat (224 + n / 4096), Char.ofNat (128 + n / 64 % 64), Char.ofNat (128 + n % 64)]
  else [Char.ofNat (240 + n / 262144), Char.ofNat (128 + n / 4096 % 64),
    Char.ofNat (128 + n / 64 % 64), Char.ofNat (128 + n % 64)]

def simpleEscape : Char → Option Char
  | '"' => some '"'
  | '\\' => some '\\'
  | '/' => some '/'
  | 'b' => some (Char.ofNat 8)
  | 'f' => some (Char.ofNat 12)
  | 'n' => some '\n'
  | 'r' => some '\r'
  | 't' => some '\t'
  | _ => none

/-- The low half of a surrogate pair. -/
def readLow (high : Nat) : List Char → Option (List Char × List Char)
  | '\\' :: 'u' :: a :: b :: c :: d :: rest => do
      let low ← hexUnit a b c d
      if 56320 ≤ low ∧ low < 57344 then
        return (utf8 (65536 + 1024 * (high - 55296) + (low - 56320)), rest)
      else none
  | _ => none

/-- What follows a backslash: the bytes it stands for and the rest. -/
def readEscape : List Char → Option (List Char × List Char)
  | 'u' :: a :: b :: c :: d :: rest => do
      let unit ← hexUnit a b c d
      if 55296 ≤ unit ∧ unit < 56320 then readLow unit rest
      else if 56320 ≤ unit ∧ unit < 57344 then none
      else return (utf8 unit, rest)
  | c :: rest => (simpleEscape c).map fun value => ([value], rest)
  | [] => none

/-- A character that stands for itself in a string. -/
def plainChar (c : Char) : Bool := c != '"' && c != '\\' && decide (32 ≤ c.toNat)

/-- The characters of a string up to its closing quote. -/
def readChars : Nat → List Char → Option (List Char × List Char)
  | 0, _ => none
  | _ + 1, [] => none
  | fuel + 1, c :: rest =>
      if c = '"' then some ([], rest)
      else if c = '\\' then do
        let (bytes, rest) ← readEscape rest
        let (value, rest) ← readChars fuel rest
        return (bytes ++ value, rest)
      else if plainChar c then (readChars fuel rest).map fun (value, rest) => (c :: value, rest)
      else none

/-- What follows an opening quote. Every pass consumes a character, so the length is fuel enough. -/
def readString (text : List Char) : Option (List Char × List Char) :=
  readChars (text.length + 1) text

/-! ### Values -/

def blank (c : Char) : Bool := c == ' ' || c == '\t' || c == '\n' || c == '\r'

def skipBlanks (text : List Char) : List Char := text.dropWhile blank

/-- An integer without leading zeros, then a fraction, then an exponent, the last two if present. -/
def numberText (digits : List Char) : Bool :=
  let unsigned := if digits.head? = some '-' then digits.tail else digits
  let whole := unsigned.takeWhile Char.isDigit
  let rest := unsigned.dropWhile Char.isDigit
  let fraction := if rest.head? = some '.' then rest.tail.takeWhile Char.isDigit else ['0']
  let rest := if rest.head? = some '.' then rest.tail.dropWhile Char.isDigit else rest
  let exponent :=
    match rest with
    | [] => ['0']
    | e :: rest =>
        if e = 'e' ∨ e = 'E' then
          if rest.head? = some '+' ∨ rest.head? = some '-' then rest.tail else rest
        else []
  whole != [] && (whole == ['0'] || whole.head? != some '0') && fraction != [] &&
    exponent != [] && exponent.all Char.isDigit

def numberChar (c : Char) : Bool := c.isDigit || c == '-' || c == '+' || c == '.' || c == 'e' || c == 'E'

def readNumber (text : List Char) : Option (Value × List Char) :=
  let digits := text.takeWhile numberChar
  if numberText digits then some (.number digits, text.dropWhile numberChar) else none

mutual

def readValue : Nat → List Char → Option (Value × List Char)
  | 0, _ => none
  | fuel + 1, text =>
      match skipBlanks text with
      | '"' :: rest => (readString rest).map fun (value, rest) => (.string value, rest)
      | '[' :: rest =>
          match skipBlanks rest with
          | ']' :: rest => some (.array [], rest)
          | rest => (readItems fuel rest).map fun (items, rest) => (.array items, rest)
      | '{' :: rest =>
          match skipBlanks rest with
          | '}' :: rest => some (.object [], rest)
          | rest => (readMembers fuel rest).map fun (members, rest) => (.object members, rest)
      | 't' :: 'r' :: 'u' :: 'e' :: rest => some (.bool true, rest)
      | 'f' :: 'a' :: 'l' :: 's' :: 'e' :: rest => some (.bool false, rest)
      | 'n' :: 'u' :: 'l' :: 'l' :: rest => some (.null, rest)
      | rest => readNumber rest

/-- The items of an array from the first on. -/
def readItems : Nat → List Char → Option (List Value × List Char)
  | 0, _ => none
  | fuel + 1, text => do
      let (item, rest) ← readValue fuel text
      match skipBlanks rest with
      | ',' :: rest => do
          let (items, rest) ← readItems fuel rest
          return (item :: items, rest)
      | ']' :: rest => return ([item], rest)
      | _ => none

/-- The members of an object from the first on. -/
def readMembers : Nat → List Char → Option (List (List Char × Value) × List Char)
  | 0, _ => none
  | fuel + 1, text =>
      match skipBlanks text with
      | '"' :: rest => do
          let (name, rest) ← readString rest
          match skipBlanks rest with
          | ':' :: rest => do
              let (value, rest) ← readValue fuel rest
              match skipBlanks rest with
              | ',' :: rest => do
                  let (members, rest) ← readMembers fuel rest
                  return ((name, value) :: members, rest)
              | '}' :: rest => return ([(name, value)], rest)
              | _ => none
          | _ => none
      | _ => none

end

/-- A whole text is one value. Nesting and lists both consume characters, so the length is fuel enough. -/
def parse (text : List Char) : Option Value :=
  match readValue (text.length + 1) text with
  | some (value, rest) => if skipBlanks rest = [] then some value else none
  | none => none

/-! ### Unescaped strings -/

/-- A string that may stand between quotes as it is. -/
def Plain (s : List Char) : Prop := ∀ c ∈ s, plainChar c = true

instance (s : List Char) : Decidable (Plain s) := List.decidableBAll _ s

theorem readChars_plain {s : List Char} (h : Plain s) (rest : List Char) {fuel : Nat}
    (hfuel : s.length < fuel) : readChars fuel (s ++ '"' :: rest) = some (s, rest) := by
  induction s generalizing fuel with
  | nil =>
      cases fuel with
      | zero => exact absurd hfuel (Nat.not_lt_zero _)
      | succ fuel => rfl
  | cons c s ih =>
      cases fuel with
      | zero => exact absurd hfuel (Nat.not_lt_zero _)
      | succ fuel =>
          have hc : plainChar c = true := h c List.mem_cons_self
          have hne : c ≠ '"' ∧ c ≠ '\\' := by
            simp only [plainChar, Bool.and_eq_true, bne_iff_ne] at hc
            exact hc.1
          have htail := ih (fun b hb => h b (List.mem_cons_of_mem c hb))
            (show s.length < fuel by simpa using hfuel)
          rw [List.cons_append, readChars, if_neg hne.1, if_neg hne.2, if_pos hc, htail]
          rfl

theorem readString_plain {s : List Char} (h : Plain s) (rest : List Char) :
    readString (s ++ '"' :: rest) = some (s, rest) := by
  apply readChars_plain h
  rw [List.length_append, List.length_cons]
  omega

theorem length_utf8_le (n : Nat) : (utf8 n).length ≤ 4 := by
  unfold utf8
  split
  · exact Nat.le_of_ble_eq_true rfl
  · split
    · exact Nat.le_of_ble_eq_true rfl
    · split
      · exact Nat.le_of_ble_eq_true rfl
      · exact Nat.le_of_ble_eq_true rfl

/-- A quote is no hexadecimal digit. -/
theorem hexUnit_ne_quote {a b c d : Char} {unit : Nat} (h : hexUnit a b c d = some unit) :
    '"' ∉ [a, b, c, d] := by
  have hquote : hexValue '"' = none := by decide
  intro hmem
  simp only [List.mem_cons, List.not_mem_nil, or_false] at hmem
  rcases hmem with rfl | rfl | rfl | rfl <;>
    simp [hexUnit, hquote] at h

theorem readLow_spec {high : Nat} {text bytes rest : List Char}
    (h : readLow high text = some (bytes, rest)) :
    ∃ e, text = e ++ rest ∧ '"' ∉ e ∧ bytes.length ≤ e.length := by
  unfold readLow at h
  split at h
  next a b c d tail =>
    simp only [Option.bind_eq_bind, Option.bind_eq_some_iff] at h
    obtain ⟨low, hlow, h⟩ := h
    split at h
    next =>
      obtain ⟨rfl, rfl⟩ := Prod.mk.inj (Option.some.inj h)
      refine ⟨['\\', 'u', a, b, c, d], rfl, ?_, ?_⟩
      · have hdigits := hexUnit_ne_quote hlow
        simpa using hdigits
      · have hlen := length_utf8_le (65536 + 1024 * (high - 55296) + (low - 56320))
        exact hlen.trans (Nat.le_of_ble_eq_true rfl)
    next => cases h
  next => cases h

/-- An escape either is an escaped quote or has no quote in it, and never shortens to more bytes. -/
theorem readEscape_spec {text bytes rest : List Char} (h : readEscape text = some (bytes, rest)) :
    (text = '"' :: rest ∧ bytes = ['"']) ∨
      ∃ e, text = e ++ rest ∧ '"' ∉ e ∧ bytes.length ≤ e.length := by
  unfold readEscape at h
  split at h
  next a b c d tail =>
    simp only [Option.bind_eq_bind, Option.bind_eq_some_iff] at h
    obtain ⟨unit, hunit, h⟩ := h
    have hdigits := hexUnit_ne_quote hunit
    split at h
    next =>
      obtain ⟨e, rfl, hquote, hlen⟩ := readLow_spec h
      refine Or.inr ⟨['u', a, b, c, d] ++ e, rfl, ?_, ?_⟩
      · rw [List.mem_append, not_or]
        exact ⟨by simpa using hdigits, hquote⟩
      · rw [List.length_append]
        omega
    next =>
      split at h
      next => cases h
      next =>
        obtain ⟨rfl, rfl⟩ := Prod.mk.inj (Option.some.inj h)
        refine Or.inr ⟨['u', a, b, c, d], rfl, by simpa using hdigits, ?_⟩
        exact (length_utf8_le unit).trans (Nat.le_of_ble_eq_true rfl)
  next c tail _ =>
    simp only [Option.map_eq_some_iff, Prod.mk.injEq] at h
    obtain ⟨value, hvalue, rfl, rfl⟩ := h
    by_cases hquote : c = '"'
    · subst hquote
      obtain rfl : '"' = value := Option.some.inj hvalue
      exact Or.inl ⟨rfl, rfl⟩
    · exact Or.inr ⟨[c], rfl, by simpa using Ne.symm hquote, le_rfl⟩
  next => cases h

/-- An escape in front of a quoted string: it is the backslash before the closing quote, or it lies
within the string. -/
theorem readEscape_append {s t bytes rest : List Char}
    (h : readEscape (s ++ '"' :: t) = some (bytes, rest)) :
    (s = [] ∧ bytes = ['"'] ∧ rest = t) ∨
      ∃ e s', s = e ++ s' ∧ rest = s' ++ '"' :: t ∧ bytes.length ≤ e.length := by
  rcases readEscape_spec h with ⟨htext, rfl⟩ | ⟨e, htext, hquote, hlen⟩
  · cases s with
    | nil => exact Or.inl ⟨rfl, rfl, (List.cons.inj htext).2.symm⟩
    | cons c s =>
        obtain ⟨rfl, hrest⟩ := List.cons.inj htext
        exact Or.inr ⟨['"'], s, rfl, hrest.symm, le_rfl⟩
  · rcases List.append_eq_append_iff.mp htext with ⟨m, rfl, hrest⟩ | ⟨m, rfl, hrest⟩
    · cases m with
      | nil => exact Or.inr ⟨s, [], by simp, by simpa using hrest.symm, by simpa using hlen⟩
      | cons c m =>
          obtain ⟨rfl, -⟩ := List.cons.inj hrest
          exact absurd (List.mem_append_right s List.mem_cons_self) hquote
    · exact Or.inr ⟨e, m, rfl, hrest, hlen⟩

/-- **What an unescaped string is read as.** It comes back as it is, or something shorter does, or its
last character is a backslash and the closing quote has become part of a longer string. -/
theorem readChars_append {fuel : Nat} {s t value rest : List Char}
    (h : readChars fuel (s ++ '"' :: t) = some (value, rest)) :
    (Plain s ∧ value = s ∧ rest = t) ∨ value.length < s.length ∨
      (s.getLast? = some '\\' ∧ ∃ fuel' tail, readChars fuel' t = some (tail, rest) ∧
        value.getLast? = ('"' :: tail).getLast?) := by
  induction fuel generalizing s value with
  | zero => cases h
  | succ fuel ih =>
      cases s with
      | nil =>
          obtain ⟨rfl, rfl⟩ := Prod.mk.inj (Option.some.inj h)
          exact Or.inl ⟨fun c hc => absurd hc List.not_mem_nil, rfl, rfl⟩
      | cons c s =>
          rw [List.cons_append, readChars] at h
          split at h
          next =>
            obtain ⟨rfl, -⟩ := Prod.mk.inj (Option.some.inj h)
            exact Or.inr (Or.inl (Nat.succ_pos _))
          next =>
            split at h
            next hslash =>
              simp only [Option.bind_eq_bind, Option.bind_eq_some_iff, Option.pure_def,
                Option.some.injEq, Prod.mk.injEq, Prod.exists] at h
              obtain ⟨bytes, after, hescape, tail, _, htail, rfl, rfl⟩ := h
              rcases readEscape_append hescape with ⟨rfl, rfl, rfl⟩ | ⟨e, s', rfl, rfl, hlen⟩
              · exact Or.inr (Or.inr ⟨by rw [hslash]; rfl, fuel, tail, htail, rfl⟩)
              · rcases ih htail with ⟨-, rfl, -⟩ | hshort | ⟨hlast, fuel', more, hmore, hvalue⟩
                · refine Or.inr (Or.inl ?_)
                  simp only [List.length_append, List.length_cons]
                  omega
                · refine Or.inr (Or.inl ?_)
                  simp only [List.length_append, List.length_cons]
                  omega
                · refine Or.inr (Or.inr ⟨?_, fuel', more, hmore, ?_⟩)
                  · rw [← List.cons_append, List.getLast?_append, hlast]
                    rfl
                  · rw [List.getLast?_append, hvalue, List.getLast?_cons]
                    rfl
            next =>
              split at h
              next hplain =>
                simp only [Option.map_eq_some_iff, Prod.mk.injEq, Prod.exists] at h
                obtain ⟨tail, after, htail, rfl, rfl⟩ := h
                rcases ih htail with ⟨hs, rfl, rfl⟩ | hshort | ⟨hlast, fuel', more, hmore, hvalue⟩
                · exact Or.inl ⟨List.forall_mem_cons.mpr ⟨hplain, hs⟩, rfl, rfl⟩
                · exact Or.inr (Or.inl (Nat.succ_lt_succ hshort))
                · refine Or.inr (Or.inr ⟨?_, fuel', more, hmore, ?_⟩)
                  · rw [List.getLast?_cons, hlast]
                    rfl
                  · rw [List.getLast?_cons, hvalue, List.getLast?_cons]
                    rfl
              next => cases h

/-- An unescaped string is read back as it is only when it is plain, provided that no string that
starts behind it ends in a backslash. -/
theorem plain_of_readString {s t rest : List Char}
    (htail : ∀ fuel tail rest, readChars fuel t = some (tail, rest) →
      ('"' :: tail).getLast? ≠ some '\\')
    (h : readString (s ++ '"' :: t) = some (s, rest)) : Plain s ∧ rest = t := by
  rcases readChars_append h with ⟨hs, -, hrest⟩ | hshort | ⟨hlast, fuel, tail, hread, hvalue⟩
  · exact ⟨hs, hrest⟩
  · exact absurd hshort (Nat.lt_irrefl _)
  · exact absurd (hvalue.symm.trans hlast) (htail fuel tail rest hread)

/-- A string that is never closed is not read. -/
theorem readChars_eq_none {fuel : Nat} {text : List Char} (h : '"' ∉ text) :
    readChars fuel text = none := by
  induction fuel generalizing text with
  | zero => rfl
  | succ fuel ih =>
      cases text with
      | nil => rfl
      | cons c rest =>
          have hc : c ≠ '"' := fun heq => h (heq ▸ List.mem_cons_self)
          have hrest : '"' ∉ rest := fun hmem => h (List.mem_cons_of_mem c hmem)
          rw [readChars, if_neg hc]
          split
          · cases hescape : readEscape rest with
            | none => rfl
            | some result =>
                obtain ⟨bytes, after⟩ := result
                rcases readEscape_spec hescape with ⟨rfl, -⟩ | ⟨e, rfl, -, -⟩
                · exact absurd List.mem_cons_self hrest
                · have hafter : readChars fuel after = none :=
                    ih fun hmem => hrest (List.mem_append_right e hmem)
                  simp only [Option.bind_eq_bind, Option.bind_some, hafter, Option.bind_none]
          · split
            · rw [ih hrest]
              rfl
            · rfl

theorem readChars_comma {fuel : Nat} {text tail rest : List Char}
    (h : readChars fuel (',' :: '"' :: text) = some (tail, rest)) : tail = [','] := by
  cases fuel with
  | zero => cases h
  | succ fuel =>
      cases fuel with
      | zero => cases h
      | succ fuel => exact (Prod.mk.inj (Option.some.inj h)).1.symm

/-! ### What is read of a text by its first characters -/

theorem skipBlanks_cons {c : Char} (hc : blank c = false) (text : List Char) :
    skipBlanks (c :: text) = c :: text := by
  rw [skipBlanks, List.dropWhile_cons, hc]
  rfl

theorem readValue_blank {c : Char} (hc : blank c = true) (fuel : Nat) (text : List Char) :
    readValue fuel (c :: text) = readValue fuel text := by
  cases fuel with
  | zero => rfl
  | succ fuel =>
      have hskip : skipBlanks (c :: text) = skipBlanks text := by
        rw [skipBlanks, List.dropWhile_cons, if_pos hc, skipBlanks]
      rw [readValue, readValue, hskip]

theorem readValue_quote (fuel : Nat) (text : List Char) :
    readValue (fuel + 1) ('"' :: text) =
      (readString text).map fun (value, rest) => (.string value, rest) := by
  rw [readValue, skipBlanks_cons (by decide)]
  rfl

theorem readValue_bracket {c : Char} (hc : blank c = false) (hend : c ≠ ']') (fuel : Nat)
    (text : List Char) :
    readValue (fuel + 1) ('[' :: c :: text) =
      (readItems fuel (c :: text)).map fun (items, rest) => (.array items, rest) := by
  rw [readValue, skipBlanks_cons (by decide)]
  simp only [skipBlanks_cons hc]
  split
  next rest heq => exact absurd (List.cons.inj heq).1 hend
  next => rfl

theorem readValue_brace (fuel : Nat) (text : List Char) :
    readValue (fuel + 1) ('{' :: '"' :: text) =
      (readMembers fuel ('"' :: text)).map fun (members, rest) => (.object members, rest) := by
  rw [readValue, skipBlanks_cons (by decide)]
  simp only [skipBlanks_cons (show blank '"' = false by decide)]
  rfl

/-- The members from one on whose name has been read, the text being at its value. -/
def readMember (fuel : Nat) (name text : List Char) : Option (List (List Char × Value) × List Char) := do
  let (value, rest) ← readValue fuel text
  match skipBlanks rest with
  | ',' :: rest => do
      let (members, rest) ← readMembers fuel rest
      return ((name, value) :: members, rest)
  | '}' :: rest => return ([(name, value)], rest)
  | _ => none

theorem readMembers_quote (fuel : Nat) {text name mid rest : List Char}
    (hname : readString text = some (name, mid)) (hmid : skipBlanks mid = ':' :: rest) :
    readMembers (fuel + 1) ('"' :: text) = readMember fuel name rest := by
  rw [readMembers, skipBlanks_cons (by decide)]
  simp only [hname, hmid, Option.bind_eq_bind, Option.bind_some]
  rfl

theorem readValue_object {fuel : Nat} {key mid rest : List Char} (hkey : Plain key)
    (hmid : skipBlanks mid = ':' :: rest) :
    readValue (fuel + 2) ('{' :: '"' :: (key ++ '"' :: mid)) =
      (readMember fuel key rest).map fun (members, rest) => (.object members, rest) := by
  rw [readValue_brace, readMembers_quote fuel (readString_plain hkey mid) hmid]

theorem readMember_head {fuel : Nat} {name text : List Char} {member : List Char × Value}
    {members : List (List Char × Value)} {rest : List Char}
    (h : readMember fuel name text = some (member :: members, rest)) :
    ∃ after, readValue fuel text = some (member.2, after) ∧
      (members ≠ [] → ∃ more, skipBlanks after = ',' :: more ∧
        readMembers fuel more = some (members, rest)) := by
  simp only [readMember, Option.bind_eq_bind, Option.bind_eq_some_iff, Prod.exists] at h
  obtain ⟨value, after, hvalue, h⟩ := h
  split at h
  next more hafter =>
    simp only [Option.bind_eq_some_iff, Option.pure_def, Option.some.injEq, Prod.mk.injEq,
      List.cons.injEq, Prod.exists] at h
    obtain ⟨members, rest, hmembers, ⟨rfl, rfl⟩, rfl⟩ := h
    exact ⟨after, hvalue, fun _ => ⟨more, hafter, hmembers⟩⟩
  next more hafter =>
    simp only [Option.pure_def, Option.some.injEq, Prod.mk.injEq, List.cons.injEq] at h
    obtain ⟨⟨rfl, rfl⟩, rfl⟩ := h
    exact ⟨after, hvalue, fun hne => absurd rfl hne⟩
  next => cases h

theorem readItems_head {fuel : Nat} {text : List Char} {item : Value} {items : List Value}
    {rest : List Char} (h : readItems (fuel + 1) text = some (item :: items, rest)) :
    ∃ after, readValue fuel text = some (item, after) := by
  simp only [readItems, Option.bind_eq_bind, Option.bind_eq_some_iff, Prod.exists] at h
  obtain ⟨value, after, hvalue, h⟩ := h
  split at h
  next =>
    simp only [Option.bind_eq_some_iff, Option.pure_def, Option.some.injEq, Prod.mk.injEq,
      List.cons.injEq, Prod.exists] at h
    obtain ⟨items, rest, -, ⟨rfl, -⟩, -⟩ := h
    exact ⟨after, hvalue⟩
  next =>
    simp only [Option.pure_def, Option.some.injEq, Prod.mk.injEq, List.cons.injEq] at h
    obtain ⟨⟨rfl, -⟩, -⟩ := h
    exact ⟨after, hvalue⟩
  next => cases h

theorem readItems_last {fuel : Nat} {text : List Char} {item : Value} {rest : List Char}
    (h : readValue fuel text = some (item, ']' :: rest)) :
    readItems (fuel + 1) text = some ([item], rest) := by
  rw [readItems, h]
  rfl

theorem readMember_last {fuel : Nat} {name text : List Char} {value : Value} {rest : List Char}
    (h : readValue fuel text = some (value, '}' :: rest)) :
    readMember fuel name text = some ([(name, value)], rest) := by
  rw [readMember, h]
  rfl

theorem readMember_comma {fuel : Nat} {name text : List Char} {value : Value}
    {members : List (List Char × Value)} {more rest : List Char}
    (h : readValue fuel text = some (value, ',' :: more))
    (hmore : readMembers fuel more = some (members, rest)) :
    readMember fuel name text = some ((name, value) :: members, rest) := by
  simp only [readMember, h, Option.bind_eq_bind, Option.bind_some]
  rw [show skipBlanks (',' :: more) = ',' :: more from skipBlanks_cons (by decide) more]
  simp only [hmore, Option.bind_some, Option.pure_def]

theorem parse_of_readValue {text : List Char} {value : Value}
    (h : readValue (text.length + 1) text = some (value, [])) : parse text = some value := by
  rw [parse, h]
  rfl

theorem readValue_of_parse {text : List Char} {value : Value} (h : parse text = some value) :
    ∃ rest, readValue (text.length + 1) text = some (value, rest) := by
  unfold parse at h
  split at h
  next parsed rest hread =>
    split at h
    next =>
      obtain rfl : parsed = value := Option.some.inj h
      exact ⟨rest, hread⟩
    next => cases h
  next => cases h

/-- A string value in front of a further member is read back as it is only when it is plain. -/
theorem plain_of_readValue_comma {fuel : Nat} {s t rest : List Char}
    (h : readValue (fuel + 1) ('"' :: (s ++ '"' :: ',' :: '"' :: t)) = some (.string s, rest)) :
    Plain s ∧ rest = ',' :: '"' :: t := by
  rw [readValue_quote] at h
  simp only [Option.map_eq_some_iff, Prod.mk.injEq, Value.string.injEq, Prod.exists] at h
  obtain ⟨value, after, hread, rfl, rfl⟩ := h
  refine plain_of_readString (fun fuel tail rest hcomma => ?_) hread
  rw [readChars_comma hcomma]
  decide

end JsonText
