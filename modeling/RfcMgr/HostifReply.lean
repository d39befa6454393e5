import RfcMgr.HostifRequest

/-! What `getRFCParameter` takes from a reply of the hostif, the transfer having succeeded. The reply is
any JSON text; the result structure is the caller's, and `getParam` and `getAttribute` hand in one that
they have not initialised. -/

namespace RfcMgr.RfcApi

open JsonText

/-! ### cJSON items -/

/-- The `child` list of an item, with the names that the members of an object have. -/
def childItems : Value → List (Option Str × Value)
  | .array items => items.map fun item => (none, item)
  | .object members => members.map fun member => (some member.1, member.2)
  | _ => []

/-- `cJSON_GetObjectItem`: names are compared without regard to case. -/
def getObjectItem (item : Value) (name : String) : Option Value :=
  ((childItems item).find? fun child =>
    match child.1 with
    | some string => stringCaseCompare name.toList string
    | none => false).map (·.2)

/-- `item->valuestring`, a null pointer unless the item is a string. -/
def valueString : Value → Option Str
  | .string value => some value
  | _ => none

section Reply

-- what cJSON makes of the digits of a number, as an `int`
variable (numberInt : Str → Int)

/-- `item->valueint`. -/
def valueInt : Value → Int
  | .bool true => 1
  | .number digits => numberInt digits
  | _ => 0

/-! ### The reply -/

/-- `RFC_ParamData_t` of a caller; a field that was never written is `none`. -/
structure ParamData where
  name : Option Str
  type : Option Int
  value : Option Str
  deriving DecidableEq

def ParamData.unwritten : ParamData := ⟨none, none, none⟩

/-- The text that the reader of a member copies or logs; without the member nothing is read, and the
outer `none` is the use of a null string. -/
def readString (subitem : Value) (member : String) : Option (Option Str) :=
  match getObjectItem subitem member with
  | none => some none
  | some item => (valueString item).map some

/-- `strncpy` into a buffer of `MAX_PARAM_LEN` bytes, its last one set to NUL. -/
def copied (text : Str) : Str := text.take (maxParamLen - 1)

/-- One turn of the loop over `parameters`; `none` is the use of a null string. -/
def readSubitem (param : ParamData) (subitem : Value) : Option ParamData := do
  let name ← readString subitem "name"
  let param := { param with name := (name.map copied).or param.name }
  let dataType := (getObjectItem subitem "dataType").map (valueInt numberInt)
  let param := { param with type := dataType.or param.type }
  let value ← readString subitem "value"
  let param := { param with value := (value.map copied).or param.value }
  let _message ← readString subitem "message"
  return param

/-- The items that the loop runs over: `parameters` may be an array or an object. -/
def subitems (response : Value) : List Value :=
  (((getObjectItem response "parameters").map childItems).getD []).map (·.2)

/-- `(WDMP_STATUS)valueint`. -/
def WdmpStatus.ofInt (code : Int) : WdmpStatus :=
  if code = 0 then .success
  else if code = 1 then .failure
  else if code = 38 then .errDefaultValue
  else .other code

def replyStatus (response : Value) : WdmpStatus :=
  match getObjectItem response "statusCode" with
  | none => .failure
  | some statusCode => WdmpStatus.ofInt (valueInt numberInt statusCode)

/-- The end of `getRFCParameter`; a reply that does not parse is `none`. -/
def readReply (reply : Option Value) (param : ParamData) : Option (WdmpStatus × ParamData) :=
  match reply with
  | none => some (.failure, param)
  | some response =>
      ((subitems response).foldlM (readSubitem numberInt) param).map fun param =>
        (replyStatus numberInt response, param)

/-- The statuses on which callers read the structure. -/
def Succeeds (status : WdmpStatus) : Prop := status = .success ∨ status = .errDefaultValue

/-- No null string is used, and a caller that goes on to read its structure finds every field written. -/
def ReadSafely (reply : Option Value) : Prop :=
  ∃ status param, readReply numberInt reply .unwritten = some (status, param) ∧
    (Succeeds status → param.name.isSome ∧ param.type.isSome ∧ param.value.isSome)

/-! ### What a reply has to look like -/

/-- The member is a string, if it is there. -/
def StringMember (subitem : Value) (member : String) : Prop :=
  ∀ item, getObjectItem subitem member = some item → (valueString item).isSome

/-- The names, values and messages of the parameters are strings. -/
def StringsOnly (items : List Value) : Prop :=
  ∀ subitem ∈ items, ∀ member ∈ ["name", "value", "message"], StringMember subitem member

/-- One of the parameters has the member. -/
def Gives (items : List Value) (member : String) : Prop :=
  ∃ subitem ∈ items, (getObjectItem subitem member).isSome

/-- The status code is that of `WDMP_SUCCESS` or `WDMP_ERR_DEFAULT_VALUE`. -/
def SuccessCode (response : Value) : Prop :=
  ∃ statusCode, getObjectItem response "statusCode" = some statusCode ∧
    (valueInt numberInt statusCode = 0 ∨ valueInt numberInt statusCode = 38)

/-- The strings are strings, and a reply of success has a name, a data type and a value. -/
def WellFormed (response : Value) : Prop :=
  StringsOnly (subitems response) ∧
    (SuccessCode numberInt response →
      ∀ member ∈ ["name", "dataType", "value"], Gives (subitems response) member)

/-! ### Reading it -/

theorem readString_isSome_iff (subitem : Value) (member : String) :
    (readString subitem member).isSome ↔ StringMember subitem member := by
  unfold readString StringMember
  cases getObjectItem subitem member with
  | none => simp
  | some item => simp

theorem readString_some {subitem : Value} {member : String} {text : Option Str}
    (h : readString subitem member = some text) :
    text.isSome ↔ (getObjectItem subitem member).isSome := by
  unfold readString at h
  cases hitem : getObjectItem subitem member with
  | none =>
      rw [hitem] at h
      cases h
      rfl
  | some item =>
      rw [hitem] at h
      obtain ⟨string, -, rfl⟩ := Option.map_eq_some_iff.mp h
      rfl

/-- The fields that the parameters write are those of the members that they have. -/
structure Fills (items : List Value) (before after : ParamData) : Prop where
  name : after.name.isSome ↔ before.name.isSome ∨ Gives items "name"
  type : after.type.isSome ↔ before.type.isSome ∨ Gives items "dataType"
  value : after.value.isSome ↔ before.value.isSome ∨ Gives items "value"

theorem gives_nil (member : String) : ¬ Gives [] member := by
  rintro ⟨subitem, hmem, -⟩
  cases hmem

theorem gives_cons (subitem : Value) (items : List Value) (member : String) :
    Gives (subitem :: items) member ↔
      (getObjectItem subitem member).isSome ∨ Gives items member := by
  unfold Gives
  rw [List.exists_mem_cons_iff]

theorem gives_singleton (subitem : Value) (member : String) :
    Gives [subitem] member ↔ (getObjectItem subitem member).isSome := by
  rw [gives_cons, or_iff_left (gives_nil member)]

theorem Fills.cons {subitem : Value} {items : List Value} {before next after : ParamData}
    (hhead : Fills [subitem] before next) (hrest : Fills items next after) :
    Fills (subitem :: items) before after where
  name := by rw [hrest.name, hhead.name, gives_singleton, gives_cons, or_assoc]
  type := by rw [hrest.type, hhead.type, gives_singleton, gives_cons, or_assoc]
  value := by rw [hrest.value, hhead.value, gives_singleton, gives_cons, or_assoc]

theorem stringsOnly_nil : StringsOnly [] := fun _ h => absurd h List.not_mem_nil

theorem stringsOnly_cons (subitem : Value) (items : List Value) :
    StringsOnly (subitem :: items) ↔
      (StringMember subitem "name" ∧ StringMember subitem "value" ∧ StringMember subitem "message") ∧
        StringsOnly items := by
  unfold StringsOnly
  simp only [List.forall_mem_cons, List.not_mem_nil, false_implies, implies_true, and_true]

theorem readSubitem_isSome_iff (param : ParamData) (subitem : Value) :
    (readSubitem numberInt param subitem).isSome ↔
      StringMember subitem "name" ∧ StringMember subitem "value" ∧ StringMember subitem "message" := by
  rw [← readString_isSome_iff, ← readString_isSome_iff, ← readString_isSome_iff]
  unfold readSubitem
  cases readString subitem "name" <;> cases readString subitem "value" <;>
    cases readString subitem "message" <;> simp

theorem readSubitem_fills {param param' : ParamData} {subitem : Value}
    (h : readSubitem numberInt param subitem = some param') : Fills [subitem] param param' := by
  unfold readSubitem at h
  simp only [Option.bind_eq_bind, Option.bind_eq_some_iff, Option.pure_def, Option.some.injEq] at h
  obtain ⟨name, hname, value, hvalue, -, -, rfl⟩ := h
  refine ⟨?_, ?_, ?_⟩
  · rw [gives_singleton, ← readString_some hname, Option.isSome_or, Option.isSome_map, Bool.or_eq_true,
      or_comm]
  · rw [gives_singleton, Option.isSome_or, Option.isSome_map, Bool.or_eq_true, or_comm]
  · rw [gives_singleton, ← readString_some hvalue, Option.isSome_or, Option.isSome_map, Bool.or_eq_true,
      or_comm]

/-- The loop gets through when every string it uses is one, and writes what some parameter has. -/
theorem readSubitems_spec (items : List Value) (param : ParamData) :
    ((items.foldlM (readSubitem numberInt) param).isSome ↔ StringsOnly items) ∧
      ∀ param', items.foldlM (readSubitem numberInt) param = some param' →
        Fills items param param' := by
  induction items generalizing param with
  | nil =>
      refine ⟨iff_of_true rfl stringsOnly_nil, ?_⟩
      intro param' h
      obtain rfl := Option.some.inj h
      exact ⟨by simp [gives_nil], by simp [gives_nil], by simp [gives_nil]⟩
  | cons subitem items ih =>
      rw [List.foldlM_cons, stringsOnly_cons, ← readSubitem_isSome_iff numberInt param]
      cases hread : readSubitem numberInt param subitem with
      | none => simp
      | some next =>
          obtain ⟨hsome, hfills⟩ := ih next
          refine ⟨by simpa using hsome, ?_⟩
          intro param' h
          exact (readSubitem_fills numberInt hread).cons (hfills param' h)

theorem replyStatus_succeeds_iff (response : Value) :
    Succeeds (replyStatus numberInt response) ↔ SuccessCode numberInt response := by
  unfold Succeeds replyStatus SuccessCode
  cases getObjectItem response "statusCode" with
  | none => simp
  | some statusCode =>
      simp only [WdmpStatus.ofInt, Option.some.injEq, exists_eq_left']
      split
      next h => simp [h]
      next h0 =>
        split
        next h => simp [h]
        next h1 =>
          split
          next h => simp [h]
          next h38 => simp [h0, h38]

/-- **Reading a reply**: no null string is used, and success means a structure that is written as a
whole, exactly for the replies that are well-formed in this sense. -/
theorem readSafely_iff (reply : Option Value) :
    ReadSafely numberInt reply ↔ ∀ response, reply = some response → WellFormed numberInt response := by
  cases reply with
  | none =>
      refine iff_of_true ⟨.failure, .unwritten, rfl, ?_⟩ (by simp)
      simp [Succeeds]
  | some response =>
      simp only [Option.some.injEq, forall_eq']
      obtain ⟨hsome, hfills⟩ := readSubitems_spec numberInt (subitems response) .unwritten
      unfold ReadSafely WellFormed
      rw [← hsome, ← replyStatus_succeeds_iff]
      simp only [readReply]
      cases hread : (subitems response).foldlM (readSubitem numberInt) .unwritten with
      | none => simp
      | some param =>
          have hwritten := hfills param hread
          have hfields : (param.name.isSome ∧ param.type.isSome ∧ param.value.isSome) ↔
              ∀ member ∈ ["name", "dataType", "value"], Gives (subitems response) member := by
            rw [hwritten.name, hwritten.type, hwritten.value]
            simp [ParamData.unwritten]
          rw [← hfields]
          constructor
          · rintro ⟨status, param', hreply, h⟩
            obtain ⟨rfl, rfl⟩ := Prod.mk.inj (Option.some.inj hreply)
            exact ⟨rfl, h⟩
          · rintro ⟨-, h⟩
            exact ⟨_, param, rfl, h⟩

end Reply

/-- `{"statusCode":0}`, and nothing else. -/
theorem not_readSafely_bareStatus :
    ¬ ReadSafely (fun _ => 0) (some (.object [("statusCode".toList, .number ['0'])])) := by
  rintro ⟨status, param, hread, h⟩
  obtain ⟨rfl, rfl⟩ := Prod.mk.inj (Option.some.inj hread)
  exact Bool.false_ne_true (h (Or.inl (by decide))).1

end RfcMgr.RfcApi
