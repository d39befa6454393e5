import RfcMgr.JsonText
import RfcMgr.Hostif

/-! The requests that `getRFCParameter` and `setRFCParameter` of rfcapi.cpp send to the hostif, curl
having given them a handle. Names and values are put between the quotes as they are, so a request
means what the caller asked for exactly when both may stand there. -/

namespace RfcMgr

open JsonText

/-- The number of a `DATA_TYPE`. -/
def DataType.number : DataType → Nat
  | .string => 0
  | .int => 1
  | .uint => 2
  | .boolean => 3
  | .datetime => 4
  | .base64 => 5
  | .long => 6
  | .ulong => 7
  | .float => 8
  | .double => 9
  | .byte => 10
  | .none => 11
  | .blob => 12

/-- `ss << eDataType`. -/
def DataType.digits (type : DataType) : Str := Nat.toDigits 10 type.number

namespace RfcApi

/-- How far a call gets before it waits for the hostif. -/
inductive Request where
  /-- `WDMP_FAILURE`, with nothing sent. -/
  | refused
  /-- A null pointer is appended to the text of the request. -/
  | crash
  | sent (data : Str)
  deriving DecidableEq

/-- The name of a whole subtree. For the empty name the code compares the byte in front of it. -/
def Wildcard (name : Str) : Prop := name.getLast? = some '.'

instance (name : Str) : Decidable (Wildcard name) := inferInstanceAs (Decidable (_ = _))

def getData (name : Str) : Str := "\x7b\"names\" : [\"".toList ++ name ++ "\"]\x7d".toList

/-- `getRFCParameter` with the hostif ready. -/
def getRequest (name : Str) : Request :=
  if Wildcard name then .refused else .sent (getData name)

def setData (name value : Str) (type : DataType) : Str :=
  "\x7b\"parameters\" : [\x7b\"name\":\"".toList ++ name ++ "\",\"value\":\"".toList ++ value ++
    "\",\"dataType\":".toList ++ type.digits ++ "\x7d]\x7d".toList

/-- `setRFCParameter`. Only a wildcard name together with a null value is refused. -/
def setRequest (name : Str) (value : Option Str) (type : DataType) : Request :=
  if Wildcard name ∧ value = none then .refused
  else
    match value with
    | none => .crash
    | some value => .sent (setData name value type)

/-! ### What the hostif makes of a request -/

def namesValue (name : Str) : Value :=
  .object [("names".toList, .array [.string name])]

/-- The members of the one parameter of a set. -/
def parameterMembers (name value : Str) (type : DataType) : List (Str × Value) :=
  [("name".toList, .string name), ("value".toList, .string value),
    ("dataType".toList, .number type.digits)]

def parametersValue (name value : Str) (type : DataType) : Value :=
  .object [("parameters".toList, .array [.object (parameterMembers name value type)])]

/-- A wildcard name or a null value is refused, and any other set is sent as a text that reads as that
name, value and type. -/
structure SetMeant (name : Str) (value : Option Str) (type : DataType) : Prop where
  refused : Wildcard name ∨ value = none → setRequest name value type = .refused
  sent : ∀ given, ¬ Wildcard name → value = some given →
    ∃ data, setRequest name value type = .sent data ∧
      parse data = some (parametersValue name given type)

structure GetMeant (name : Str) : Prop where
  sent : ¬ Wildcard name →
    ∃ data, getRequest name = .sent data ∧ parse data = some (namesValue name)

/-! ### The text of a request -/

section Text

/-- The text of a set behind the value. -/
def afterValue (type : DataType) : Str :=
  ',' :: '"' :: ("dataType".toList ++ '"' :: ':' :: (type.digits ++ ['}', ']', '}']))

/-- The text of a set behind the name. -/
def afterName (value : Str) (type : DataType) : Str :=
  ',' :: '"' :: ("value".toList ++ '"' :: ':' :: '"' :: (value ++ '"' :: afterValue type))

variable (name value : Str) (type : DataType)

theorem getData_eq : getData name =
    '{' :: '"' :: ("names".toList ++ '"' :: ' ' :: ':' :: ' ' :: '[' :: '"' ::
      (name ++ '"' :: [']', '}'])) := by
  have hopen : "\x7b\"names\" : [\"".toList =
      '{' :: '"' :: ("names".toList ++ ['"', ' ', ':', ' ', '[', '"']) := by simp
  have hclose : "\"]\x7d".toList = ['"', ']', '}'] := by simp
  unfold getData
  rw [hopen, hclose]
  simp only [List.cons_append, List.append_assoc, List.nil_append]

theorem setData_eq : setData name value type =
    '{' :: '"' :: ("parameters".toList ++ '"' :: ' ' :: ':' :: ' ' :: '[' :: '{' :: '"' ::
      ("name".toList ++ '"' :: ':' :: '"' :: (name ++ '"' :: afterName value type))) := by
  have hname : "\x7b\"parameters\" : [\x7b\"name\":\"".toList = '{' :: '"' :: ("parameters".toList ++
      '"' :: ' ' :: ':' :: ' ' :: '[' :: '{' :: '"' :: ("name".toList ++ ['"', ':', '"'])) := by
    simp
  have hvalue : "\",\"value\":\"".toList =
      '"' :: ',' :: '"' :: ("value".toList ++ ['"', ':', '"']) := by simp
  have htype : "\",\"dataType\":".toList = '"' :: ',' :: '"' :: ("dataType".toList ++ ['"', ':']) := by
    simp
  have hclose : "\x7d]\x7d".toList = ['}', ']', '}'] := by simp
  unfold setData afterName afterValue
  rw [hname, hvalue, htype, hclose]
  simp only [List.cons_append, List.append_assoc, List.nil_append]

end Text

/-! ### Reading a request -/

section Reading

variable (name value : Str) (type : DataType)

theorem plain_keys : Plain "names".toList ∧ Plain "parameters".toList ∧ Plain "name".toList ∧
    Plain "value".toList ∧ Plain "dataType".toList := by simp [Plain, plainChar]

theorem fuel_getData : ∃ k, (getData name).length + 1 = k + 5 := by
  refine Nat.exists_eq_add_of_le' ?_
  rw [getData_eq]
  simp only [List.length_append, List.length_cons]
  omega

theorem fuel_setData : ∃ k, (setData name value type).length + 1 = k + 9 := by
  refine Nat.exists_eq_add_of_le' ?_
  have hkey : "parameters".toList.length = 10 := by simp
  rw [setData_eq]
  simp only [List.length_append, List.length_cons]
  omega

/-- The one member of a request, up to the bracket of its array. -/
theorem readValue_outer {key : Str} (hkey : Plain key) (fuel : Nat) (text : Str) :
    readValue (fuel + 2) ('{' :: '"' :: (key ++ '"' :: ' ' :: ':' :: ' ' :: '[' :: text)) =
      (readMember fuel key ('[' :: text)).map fun (members, rest) => (.object members, rest) := by
  have hcolon : skipBlanks (' ' :: ':' :: ' ' :: '[' :: text) = ':' :: ' ' :: '[' :: text := rfl
  rw [readValue_object hkey hcolon, readMember, readMember, readValue_blank (by decide)]

theorem parse_getData_of_plain (hname : Plain name) :
    parse (getData name) = some (namesValue name) := by
  apply parse_of_readValue
  obtain ⟨k, hk⟩ := fuel_getData name
  have hstring : readValue (k + 1) ('"' :: (name ++ '"' :: [']', '}'])) =
      some (.string name, [']', '}']) := by
    rw [readValue_quote, readString_plain hname]
    rfl
  have harray : readValue (k + 3) ('[' :: '"' :: (name ++ '"' :: [']', '}'])) =
      some (.array [.string name], ['}']) := by
    rw [readValue_bracket (by decide) (by decide), readItems_last hstring]
    rfl
  rw [hk, getData_eq, readValue_outer plain_keys.1, readMember_last harray]
  rfl

theorem plain_of_parse_getData (h : parse (getData name) = some (namesValue name)) : Plain name := by
  obtain ⟨rest, hread⟩ := readValue_of_parse h
  obtain ⟨k, hk⟩ := fuel_getData name
  rw [hk, getData_eq, readValue_outer plain_keys.1] at hread
  simp only [namesValue, Option.map_eq_some_iff, Prod.mk.injEq, Value.object.injEq,
    Prod.exists] at hread
  obtain ⟨members, after, hmember, rfl, -⟩ := hread
  obtain ⟨afterArray, harray, -⟩ := readMember_head hmember
  rw [readValue_bracket (by decide) (by decide)] at harray
  simp only [Option.map_eq_some_iff, Prod.mk.injEq, Value.array.injEq, Prod.exists] at harray
  obtain ⟨items, afterItems, hitems, rfl, -⟩ := harray
  obtain ⟨afterItem, hitem⟩ := readItems_head hitems
  rw [readValue_quote] at hitem
  simp only [Option.map_eq_some_iff, Prod.mk.injEq, Value.string.injEq, Prod.exists] at hitem
  obtain ⟨string, afterString, hstring, rfl, -⟩ := hitem
  -- nothing behind the name closes a string
  refine (plain_of_readString (fun fuel tail rest hread => ?_) hstring).1
  rw [readChars_eq_none (by decide)] at hread
  cases hread

theorem readMembers_afterValue (fuel : Nat) :
    readMembers (fuel + 2) (afterValue type).tail =
      some ([("dataType".toList, .number type.digits)], [']', '}']) := by
  have hcolon : skipBlanks (':' :: (type.digits ++ ['}', ']', '}'])) =
      ':' :: (type.digits ++ ['}', ']', '}']) := rfl
  have hdigits : readValue (fuel + 1) (type.digits ++ ['}', ']', '}']) =
      some (.number type.digits, ['}', ']', '}']) := by
    cases type <;> rfl
  rw [afterValue, List.tail_cons, readMembers_quote (fuel + 1)
    (readString_plain plain_keys.2.2.2.2 _) hcolon, readMember_last hdigits]

theorem readMembers_afterName (hvalue : Plain value) (fuel : Nat) :
    readMembers (fuel + 3) (afterName value type).tail =
      some ((parameterMembers name value type).tail, [']', '}']) := by
  have hcolon : skipBlanks (':' :: '"' :: (value ++ '"' :: afterValue type)) =
      ':' :: '"' :: (value ++ '"' :: afterValue type) := rfl
  have hstring : readValue (fuel + 2) ('"' :: (value ++ '"' :: afterValue type)) =
      some (.string value, afterValue type) := by
    rw [readValue_quote, readString_plain hvalue]
    rfl
  rw [afterName, List.tail_cons, readMembers_quote (fuel + 2)
    (readString_plain plain_keys.2.2.2.1 _) hcolon,
    readMember_comma hstring (readMembers_afterValue type fuel)]
  rfl

theorem parse_setData_of_plain (hname : Plain name) (hvalue : Plain value) :
    parse (setData name value type) = some (parametersValue name value type) := by
  apply parse_of_readValue
  obtain ⟨k, hk⟩ := fuel_setData name value type
  have hcolon : skipBlanks (':' :: '"' :: (name ++ '"' :: afterName value type)) =
      ':' :: '"' :: (name ++ '"' :: afterName value type) := rfl
  have hstring : readValue (k + 3) ('"' :: (name ++ '"' :: afterName value type)) =
      some (.string name, afterName value type) := by
    rw [readValue_quote, readString_plain hname]
    rfl
  have hobject : readValue (k + 5) ('{' :: '"' :: ("name".toList ++ '"' :: ':' :: '"' ::
      (name ++ '"' :: afterName value type))) =
      some (.object (parameterMembers name value type), [']', '}']) := by
    rw [readValue_object plain_keys.2.2.1 hcolon,
      readMember_comma hstring (readMembers_afterName name value type hvalue k)]
    rfl
  have harray : readValue (k + 7) ('[' :: '{' :: '"' :: ("name".toList ++ '"' :: ':' :: '"' ::
      (name ++ '"' :: afterName value type))) =
      some (.array [.object (parameterMembers name value type)], ['}']) := by
    rw [readValue_bracket (by decide) (by decide), readItems_last hobject]
    rfl
  rw [hk, setData_eq, readValue_outer plain_keys.2.1, readMember_last harray]
  rfl

theorem plain_of_parse_setData
    (h : parse (setData name value type) = some (parametersValue name value type)) :
    Plain name ∧ Plain value := by
  obtain ⟨rest, hread⟩ := readValue_of_parse h
  obtain ⟨k, hk⟩ := fuel_setData name value type
  have hcolon : skipBlanks (':' :: '"' :: (name ++ '"' :: afterName value type)) =
      ':' :: '"' :: (name ++ '"' :: afterName value type) := rfl
  rw [hk, setData_eq, readValue_outer plain_keys.2.1] at hread
  simp only [parametersValue, Option.map_eq_some_iff, Prod.mk.injEq, Value.object.injEq,
    Prod.exists] at hread
  obtain ⟨members, after, hmember, rfl, -⟩ := hread
  obtain ⟨afterArray, harray, -⟩ := readMember_head hmember
  rw [readValue_bracket (by decide) (by decide)] at harray
  simp only [Option.map_eq_some_iff, Prod.mk.injEq, Value.array.injEq, Prod.exists] at harray
  obtain ⟨items, afterItems, hitems, rfl, -⟩ := harray
  obtain ⟨afterItem, hitem⟩ := readItems_head hitems
  rw [readValue_object plain_keys.2.2.1 hcolon] at hitem
  simp only [Option.map_eq_some_iff, Prod.mk.injEq, Value.object.injEq, Prod.exists] at hitem
  obtain ⟨fields, afterFields, hfields, rfl, -⟩ := hitem
  obtain ⟨afterMember, hstring, hmore⟩ := readMember_head hfields
  obtain ⟨hname, rfl⟩ := plain_of_readValue_comma hstring
  refine ⟨hname, ?_⟩
  obtain ⟨more, hcomma, hmembers⟩ := hmore (List.cons_ne_nil _ _)
  obtain rfl : (afterName value type).tail = more := (List.cons.inj hcomma).2
  have hcolon : skipBlanks (':' :: '"' :: (value ++ '"' :: afterValue type)) =
      ':' :: '"' :: (value ++ '"' :: afterValue type) := rfl
  rw [afterName, List.tail_cons, readMembers_quote (k + 2)
    (readString_plain plain_keys.2.2.2.1 _) hcolon] at hmembers
  obtain ⟨afterString, hstring, -⟩ := readMember_head hmembers
  exact (plain_of_readValue_comma hstring).1

end Reading

theorem parse_getData_iff (name : Str) :
    parse (getData name) = some (namesValue name) ↔ Plain name :=
  ⟨plain_of_parse_getData name, parse_getData_of_plain name⟩

theorem parse_setData_iff (name value : Str) (type : DataType) :
    parse (setData name value type) = some (parametersValue name value type) ↔
      Plain name ∧ Plain value :=
  ⟨plain_of_parse_setData name value type,
    fun ⟨hname, hvalue⟩ => parse_setData_of_plain name value type hname hvalue⟩

/-! ### When a request means what was asked -/

theorem getMeant_iff (name : Str) : GetMeant name ↔ Wildcard name ∨ Plain name := by
  by_cases hwild : Wildcard name
  · exact iff_of_true ⟨fun hnot => absurd hwild hnot⟩ (Or.inl hwild)
  · rw [or_iff_right hwild, ← parse_getData_iff]
    have hrequest : getRequest name = .sent (getData name) := if_neg hwild
    constructor
    · intro h
      obtain ⟨data, hsent, hparse⟩ := h.sent hwild
      obtain rfl : getData name = data := Request.sent.inj (hrequest.symm.trans hsent)
      exact hparse
    · intro h
      exact ⟨fun _ => ⟨getData name, hrequest, h⟩⟩

/-- A null value goes unnoticed under an ordinary name, and so does a wildcard name with a value. -/
theorem setMeant_iff (name : Str) (value : Option Str) (type : DataType) :
    SetMeant name value type ↔
      match value with
      | none => Wildcard name
      | some given => ¬ Wildcard name ∧ Plain name ∧ Plain given := by
  cases value with
  | none =>
      constructor
      · intro h
        have hrefused := h.refused (Or.inr rfl)
        by_contra hwild
        rw [setRequest, if_neg fun hboth => hwild hboth.1] at hrefused
        cases hrefused
      · intro hwild
        exact ⟨fun _ => if_pos ⟨hwild, rfl⟩, fun _ hnot _ => absurd hwild hnot⟩
  | some given =>
      have hrequest : setRequest name (some given) type = .sent (setData name given type) :=
        if_neg fun hboth => Option.some_ne_none given hboth.2
      constructor
      · intro h
        have hwild : ¬ Wildcard name := by
          intro hwild
          have hrefused := h.refused (Or.inl hwild)
          rw [hrequest] at hrefused
          cases hrefused
        obtain ⟨data, hsent, hparse⟩ := h.sent given hwild rfl
        obtain rfl : setData name given type = data :=
          Request.sent.inj (hrequest.symm.trans hsent)
        exact ⟨hwild, (parse_setData_iff name given type).mp hparse⟩
      · intro ⟨hwild, hplain⟩
        refine ⟨fun hor => ?_, ?_⟩
        · rcases hor with hname | hnone
          · exact absurd hname hwild
          · cases hnone
        · intro value _ hvalue
          obtain rfl : given = value := Option.some.inj hvalue
          exact ⟨_, hrequest, (parse_setData_iff name given type).mpr hplain⟩

/-- **Requests that mean what was asked.** A set does exactly when the name is a wildcard and the value
null, or neither is and both may stand between quotes as they are; a get does exactly when the name is
a wildcard or may stand there. -/
theorem requests_meant_iff (name : Str) (value : Option Str) (type : DataType) :
    (SetMeant name value type ↔
      (Wildcard name ∧ value = none) ∨
        (¬ Wildcard name ∧ Plain name ∧ ∃ given, value = some given ∧ Plain given)) ∧
      (GetMeant name ↔ Wildcard name ∨ Plain name) := by
  refine ⟨?_, getMeant_iff name⟩
  rw [setMeant_iff]
  cases value with
  | none => simp
  | some given => simp

/-- A value can close its own quotes and add a second parameter; an ordinary name with a null value and a
wildcard name with a value both pass the guard. -/
theorem not_meant :
    ¬ SetMeant "Device.Time.NTPServer1".toList
        (some "a\",\"dataType\":0\x7d,\x7b\"name\":\"Device.Time.NTPServer2\",\"value\":\"b".toList)
        .string ∧
      ¬ SetMeant "Device.Time.NTPServer1".toList none .string ∧
      ¬ SetMeant "Device.Time.".toList (some "a".toList) .string := by
  refine ⟨fun h => ?_, fun h => ?_, fun h => ?_⟩
  · exact absurd ((setMeant_iff _ _ _).mp h).2.2 (by simp [Plain, plainChar])
  · exact absurd ((setMeant_iff _ _ _).mp h) (by simp [Wildcard])
  · exact ((setMeant_iff _ _ _).mp h).1 (by simp [Wildcard])

end RfcApi

end RfcMgr
