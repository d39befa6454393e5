import RfcMgr.SuppressedParams

/-! Integer parameters behind rbus: when a set stores the integer that its text denotes. -/

namespace RfcMgr.Rdkb

open CallHistory

/-! ### The integer a text denotes -/

def digitsValue (digits : Str) : Option Nat :=
  if digits ≠ [] ∧ digits.all Char.isDigit then some (Nat.ofDigitChars 10 digits 0) else none

/-- The integer that the whole text denotes in decimal: digits, with a sign in front or without. -/
def decimalOf : Str → Option Int
  | '-' :: digits => (digitsValue digits).map fun (magnitude : Nat) => -(magnitude : Int)
  | '+' :: digits => (digitsValue digits).map fun (magnitude : Nat) => (magnitude : Int)
  | digits => (digitsValue digits).map fun (magnitude : Nat) => (magnitude : Int)

/-- The integers of an integer type. -/
def RbusValueType.InRange (n : Int) : RbusValueType → Prop
  | .int32 => -2 ^ 31 ≤ n ∧ n < 2 ^ 31
  | .uint32 => 0 ≤ n ∧ n < 2 ^ 32
  | .int64 => -2 ^ 63 ≤ n ∧ n < 2 ^ 63
  | .uint64 => 0 ≤ n ∧ n < 2 ^ 64
  | _ => False

def RbusValueType.IsInteger (type : RbusValueType) : Prop :=
  type = .int32 ∨ type = .uint32 ∨ type = .int64 ∨ type = .uint64

def RbusValue.integer : RbusValue → Option Int
  | .int32 value => some value.toInt
  | .uint32 value => some value.toNat
  | .int64 value => some value.toInt
  | .uint64 value => some value.toNat
  | _ => none

/-- The text denotes an integer of the type. -/
def Denotes (type : RbusValueType) (value : Str) : Prop :=
  ∃ n, decimalOf value = some n ∧ type.InRange n

/-- The value is the integer that the text denotes, and of the type. -/
def Exact (type : RbusValueType) (value : Str) (new : RbusValue) : Prop :=
  new.type = type ∧ ∃ n, decimalOf value = some n ∧ type.InRange n ∧ new.integer = some n

theorem Exact.denotes {type : RbusValueType} {value : Str} {new : RbusValue}
    (h : Exact type value new) : Denotes type value := by
  obtain ⟨-, n, hn, hrange, -⟩ := h
  exact ⟨n, hn, hrange⟩

/-! ### What is asked of a set -/

/-- The calls end with a set of the parameter to the integer that the text denotes, their only set. -/
def SetsExactly (type : RbusValueType) (key value : Str) (before after : List RbusCall) : Prop :=
  ∃ calls new, Extends IsRead before calls ∧ after = calls ++ [.rbusSet key new] ∧ Exact type value new

/-- The get of `set_RFCProperty` delivers the value. -/
def SetReads (env : Env) (key : Str) (st : St) (rbusValue : RbusValue) : Prop :=
  env.rbusOpen st.calls = true ∧ env.rbusGet (st.call .rbusOpen).calls key = some rbusValue

/-- `ParseConfigValue` gets past its special cases, and its get of the parameter delivers the value. -/
def ParseReads (env : Env) (configKey : Str) (st : St) (rbusValue : RbusValue) : Prop :=
  env.rbusOpen st.calls = true ∧
    ∃ wanFailOverSupportEnable st₁ wanUnificationEnable st₂,
      switchText env wanFailOverSupportKey (st.call .rbusOpen) = .ok wanFailOverSupportEnable st₁ ∧
      ¬ (wanFailOverSupportEnable = trueText ∧
        (paramNameOf configKey = uPnPRefactorKey ∨ paramNameOf configKey = xupnpKey)) ∧
      switchText env wanUnificationKey st₁ = .ok wanUnificationEnable st₂ ∧
      ¬ (wanUnificationEnable = trueText ∧ paramNameOf configKey = selectedOperationalModeKey) ∧
      env.rbusGet st₂.calls (paramNameOf configKey) = some rbusValue

/-- `set_RFCProperty` stores the integer that the text denotes, or sets nothing and reports failure. -/
def SetExactOrRefused (env : Env) (key value : Str) (st : St) (rbusValue : RbusValue) : Prop :=
  ∃ status st', setRFCProperty env key value st = .ok status st' ∧
    (SetsExactly rbusValue.type key value st.calls st'.calls ∨
      (Extends IsRead st.calls st'.calls ∧ status = .failure))

/-- `ParseConfigValue` stores the integer that the text denotes, or leaves the parameter that holds it
already, or sets nothing and returns as `reports` asks. -/
def ParseExactOrRefused (reports : Bool → Prop) (env : Env) (configKey configValue : Str)
    (rebootValue rfcRebootCronNeeded : Bool) (st : St) (rbusValue : RbusValue) : Prop :=
  ∃ result st',
    parseConfigValue env configKey configValue rebootValue rfcRebootCronNeeded st = .ok result st' ∧
      (SetsExactly rbusValue.type (paramNameOf configKey) configValue st.calls st'.calls ∨
        (Extends IsRead st.calls st'.calls ∧
          (Exact rbusValue.type configValue rbusValue ∨ reports result.1)))

/-- `std::stoi` or `std::stoul` throws on the text, or on the number in front of it. -/
def Throws (type : RbusValueType) (value : Str) : Prop :=
  match type with
  | .int32 => stoSigned 32 value = none
  | .uint32 => stoUnsigned 64 value = none
  | _ => False

/-! ### The conversions -/

theorem digitsValue_eq_some {digits : Str} {magnitude : Nat} :
    digitsValue digits = some magnitude ↔
      (digits ≠ [] ∧ ∀ c ∈ digits, c.isDigit = true) ∧ Nat.ofDigitChars 10 digits 0 = magnitude := by
  simp only [digitsValue, Option.ite_none_right_eq_some, List.all_eq_true, Option.some.injEq]

/-- A digit is neither a sign nor white space. -/
theorem not_sign_of_isDigit {c : Char} (h : c.isDigit = true) :
    isSpace c = false ∧ c ≠ '-' ∧ c ≠ '+' := by
  have hrange : 48 ≤ c.val.toNat ∧ c.val.toNat ≤ 57 := by
    simpa [Char.isDigit, UInt32.le_iff_toNat_le] using h
  have hne : ∀ d : Char, d.val.toNat < 48 → c ≠ d := by
    rintro d hd rfl
    omega
  refine ⟨?_, hne '-' (by decide), hne '+' (by decide)⟩
  have hspace : (c == ' ') = false := beq_false_of_ne (hne ' ' (by decide))
  have hcontrol : ¬ c ≤ '\r' := fun hle => by
    have hval : c.val.toNat ≤ 13 := hle
    omega
  simp [isSpace, hspace, hcontrol]

/-- What `strtol` reads behind a sign, when only digits follow. -/
theorem leadingNumber_signed {sign : Char} (hsign : sign = '-' ∨ sign = '+') {digits : Str}
    {magnitude : Nat} (h : digitsValue digits = some magnitude) :
    leadingNumber (sign :: digits) = some (sign == '-', magnitude) := by
  obtain ⟨⟨hne, hdigits⟩, hmagnitude⟩ := digitsValue_eq_some.mp h
  have htake : digits.takeWhile Char.isDigit = digits := List.takeWhile_eq_self_iff.mpr hdigits
  have hspace : isSpace sign = false := by
    rcases hsign with rfl | rfl
    · decide
    · decide
  have hfront : ((sign == '-') || sign == '+') = true := by
    rcases hsign with rfl | rfl
    · decide
    · decide
  simp only [leadingNumber, List.dropWhile_cons_of_neg (ne_true_of_eq_false hspace), List.head?_cons]
  simp [hfront, htake, hne, hmagnitude]

theorem leadingNumber_unsigned {digits : Str} {magnitude : Nat}
    (h : digitsValue digits = some magnitude) :
    leadingNumber digits = some (false, magnitude) := by
  obtain ⟨⟨hne, hdigits⟩, hmagnitude⟩ := digitsValue_eq_some.mp h
  have htake : digits.takeWhile Char.isDigit = digits := List.takeWhile_eq_self_iff.mpr hdigits
  obtain ⟨c, rest, rfl⟩ := List.exists_cons_of_ne_nil hne
  obtain ⟨hspace, hminus, hplus⟩ := not_sign_of_isDigit (hdigits c List.mem_cons_self)
  simp only [leadingNumber, List.dropWhile_cons_of_neg (ne_true_of_eq_false hspace), List.head?_cons]
  simp [hminus, hplus, htake, hmagnitude]

/-- A text that denotes an integer is read as a whole. -/
theorem leadingNumber_of_decimalOf {value : Str} {n : Int} (h : decimalOf value = some n) :
    ∃ negative magnitude, leadingNumber value = some (negative, magnitude) ∧
      n = if negative then -(magnitude : Int) else magnitude := by
  unfold decimalOf at h
  split at h
  next digits =>
    obtain ⟨magnitude, hvalue, rfl⟩ := Option.map_eq_some_iff.mp h
    exact ⟨true, magnitude, leadingNumber_signed (Or.inl rfl) hvalue, rfl⟩
  next digits =>
    obtain ⟨magnitude, hvalue, rfl⟩ := Option.map_eq_some_iff.mp h
    exact ⟨false, magnitude, leadingNumber_signed (Or.inr rfl) hvalue, rfl⟩
  next =>
    obtain ⟨magnitude, hvalue, rfl⟩ := Option.map_eq_some_iff.mp h
    exact ⟨false, magnitude, leadingNumber_unsigned hvalue, rfl⟩

theorem stoSigned_of_decimalOf {width : Nat} {value : Str} {n : Int} (h : decimalOf value = some n)
    (hlow : -2 ^ (width - 1) ≤ n) (hhigh : n < 2 ^ (width - 1)) : stoSigned width value = some n := by
  obtain ⟨negative, magnitude, hread, rfl⟩ := leadingNumber_of_decimalOf h
  rw [stoSigned, hread, Option.bind_some]
  exact if_pos ⟨hlow, hhigh⟩

/-- A minus sign is only in range in front of zero. -/
theorem stoUnsigned_of_decimalOf {width : Nat} {value : Str} {n : Int} (h : decimalOf value = some n)
    (hlow : 0 ≤ n) (hhigh : n < 2 ^ width) : stoUnsigned width value = some n.toNat := by
  obtain ⟨negative, magnitude, hread, rfl⟩ := leadingNumber_of_decimalOf h
  rw [stoUnsigned, hread, Option.bind_some]
  cases negative with
  | true =>
      obtain rfl : magnitude = 0 := by
        simp only [if_true] at hlow
        omega
      simp
  | false =>
      have hmagnitude : magnitude < 2 ^ width := by
        simp only [Bool.false_eq_true, if_false] at hhigh
        exact_mod_cast hhigh
      simp [hmagnitude]

/-- **A conversion is exact** on the texts that denote an integer of the type. -/
theorem newValue_of_denotes {env : Env} (hwidth : env.ulongWidth = 64) {type : RbusValueType}
    {value : Str} (h : Denotes type value) :
    ∃ new, newValue env type value = some new ∧ Exact type value new := by
  obtain ⟨n, hn, hrange⟩ := h
  cases type with
  | int32 =>
      refine ⟨.int32 (Int32.ofInt n), ?_, rfl, n, hn, hrange, ?_⟩
      · rw [newValue, stoSigned_of_decimalOf hn hrange.1 hrange.2]
        rfl
      · exact congrArg some (Int32.toInt_ofInt_of_le hrange.1 hrange.2)
  | uint32 =>
      have hwide : n < 2 ^ env.ulongWidth := by
        rw [hwidth]
        exact Int.lt_trans hrange.2 (by decide)
      refine ⟨.uint32 (UInt32.ofNat n.toNat), ?_, rfl, n, hn, hrange, ?_⟩
      · rw [newValue, stoUnsigned_of_decimalOf hn hrange.1 hwide]
        rfl
      · have hsize : n.toNat < UInt32.size := by
          have hhigh : n < 2 ^ 32 := hrange.2
          show n.toNat < 2 ^ 32
          omega
        rw [RbusValue.integer, UInt32.toNat_ofNat_of_lt' hsize, Int.toNat_of_nonneg hrange.1]
  | int64 =>
      refine ⟨.int64 (Int64.ofInt n), ?_, rfl, n, hn, hrange, ?_⟩
      · rw [newValue, stoSigned_of_decimalOf hn hrange.1 hrange.2]
        rfl
      · exact congrArg some (Int64.toInt_ofInt_of_le hrange.1 hrange.2)
  | uint64 =>
      refine ⟨.uint64 (UInt64.ofNat n.toNat), ?_, rfl, n, hn, hrange, ?_⟩
      · rw [newValue, stoUnsigned_of_decimalOf hn hrange.1 hrange.2]
        rfl
      · have hsize : n.toNat < UInt64.size := by
          have hhigh : n < 2 ^ 64 := hrange.2
          show n.toNat < 2 ^ 64
          omega
        rw [RbusValue.integer, UInt64.toNat_ofNat_of_lt' hsize, Int.toNat_of_nonneg hrange.1]
  | string => exact absurd hrange id
  | boolean => exact absurd hrange id
  | single => exact absurd hrange id
  | double => exact absurd hrange id
  | other => exact absurd hrange id

theorem not_isRead_set (key : Str) (new : RbusValue) : ¬ IsRead (.rbusSet key new) := fun h => by
  cases h

/-- Calls that end with a set are not reads only. -/
theorem not_extends_of_set {before calls : List RbusCall} {key : Str} {new : RbusValue}
    (hbefore : Extends IsRead before calls) :
    ¬ Extends IsRead before (calls ++ [.rbusSet key new]) := by
  obtain ⟨es, rfl, -⟩ := hbefore
  rintro ⟨es', heq, hreads⟩
  rw [List.append_assoc, List.append_cancel_left_eq] at heq
  refine not_isRead_set key new (hreads _ ?_)
  rw [← heq]
  exact List.mem_append_right es List.mem_cons_self

/-! ### `set_RFCProperty` -/

theorem RbusValueType.IsInteger.ne_other {type : RbusValueType} (h : type.IsInteger) :
    type ≠ .other := by
  rintro rfl
  simp [RbusValueType.IsInteger] at h

/-- A set of a parameter whose get delivers a value: it crashes when the conversion throws, and sends
the converted value otherwise. -/
theorem setRFCProperty_of_reads {env : Env} {key : Str} {st : St} {rbusValue : RbusValue}
    (hreads : SetReads env key st rbusValue) (htype : rbusValue.type ≠ .other) (value : Str) :
    let st' := (st.call .rbusOpen).call (.rbusGet key)
    setRFCProperty env key value st =
      match newValue env rbusValue.type value with
      | none => .crash st'
      | some new =>
          .ok (if env.rbusSet st'.calls key new then .success else .failure)
            (st'.call (.rbusSet key new)) := by
  obtain ⟨hopen, hget⟩ := hreads
  simp only [setRFCProperty, St.rbusOpen, hopen, St.rbusGet, hget, if_neg htype, St.rbusSet]
  cases newValue env rbusValue.type value with
  | none => rfl
  | some new =>
      simp only
      split
      next heq =>
        obtain ⟨hset, rfl⟩ := Prod.mk.inj heq
        rw [hset]
        rfl
      next heq =>
        obtain ⟨hset, rfl⟩ := Prod.mk.inj heq
        rw [hset]
        rfl

theorem setExactOrRefused_iff {env : Env} (hwidth : env.ulongWidth = 64) {key : Str} (value : Str)
    {st : St} {rbusValue : RbusValue} (hreads : SetReads env key st rbusValue)
    (htype : rbusValue.type.IsInteger) :
    SetExactOrRefused env key value st rbusValue ↔ Denotes rbusValue.type value := by
  have hget : Extends IsRead st.calls ((st.call .rbusOpen).call (.rbusGet key)).calls :=
    .trans (.snoc isRead_rbusOpen) (.snoc (isRead_rbusGet key))
  unfold SetExactOrRefused
  rw [setRFCProperty_of_reads hreads htype.ne_other value]
  constructor
  · rintro ⟨status, st', hrun, hexact | ⟨hextends, -⟩⟩
    · obtain ⟨calls, new, -, -, hnew⟩ := hexact
      exact hnew.denotes
    · cases hnew : newValue env rbusValue.type value with
      | none => rw [hnew] at hrun; cases hrun
      | some new =>
          rw [hnew] at hrun
          obtain ⟨-, rfl⟩ := Exec.ok.inj hrun
          exact absurd hextends (not_extends_of_set hget)
  · intro hdenotes
    obtain ⟨new, hnew, hexact⟩ := newValue_of_denotes hwidth hdenotes
    rw [hnew]
    exact ⟨_, _, rfl, Or.inl ⟨_, new, hget, rfl, hexact⟩⟩

/-! ### The printed value -/

theorem decimalOf_of_digits {digits : Str} {magnitude : Nat} (h : digitsValue digits = some magnitude) :
    decimalOf digits = some (magnitude : Int) := by
  obtain ⟨⟨-, hdigits⟩, -⟩ := digitsValue_eq_some.mp h
  unfold decimalOf
  split
  · exact absurd rfl (not_sign_of_isDigit (hdigits '-' List.mem_cons_self)).2.1
  · exact absurd rfl (not_sign_of_isDigit (hdigits '+' List.mem_cons_self)).2.2
  · rw [h]
    rfl

theorem digitsValue_repr (n : Nat) : digitsValue n.repr.toList = some n := by
  rw [Nat.toList_repr, digitsValue_eq_some]
  exact ⟨⟨Nat.toDigits_ne_nil, fun _ => Nat.isDigit_of_mem_toDigits (by decide) (by decide)⟩,
    Nat.ofDigitChars_ten_toDigits⟩

/-- A printed integer denotes itself. -/
theorem decimalOf_toString (n : Int) : decimalOf (toString n).toList = some n := by
  rw [Int.toString_eq_repr, Int.repr_eq_if]
  split
  next hnonneg =>
    rw [decimalOf_of_digits (digitsValue_repr n.toNat), Int.toNat_of_nonneg hnonneg]
  next hneg =>
    have hminus : "-".toList = ['-'] := by simp
    have hmagnitude : ((-n).toNat : Int) = -n := Int.toNat_of_nonneg (by omega)
    rw [String.toList_append, hminus, List.singleton_append, decimalOf, digitsValue_repr,
      Option.map_some, hmagnitude, Int.neg_neg]

theorem decimalOf_natToString (n : Nat) : decimalOf (toString n).toList = some (n : Int) :=
  decimalOf_of_digits (digitsValue_repr n)

/-- The text that `ParseConfigValue` prints for a 32-bit integer denotes it. -/
theorem exact_of_paramValue {rbusValue : RbusValue} {paramValue : Str}
    (htype : rbusValue.type = .int32 ∨ rbusValue.type = .uint32)
    (h : rbusValue.paramValue = some paramValue) : Exact rbusValue.type paramValue rbusValue := by
  cases rbusValue with
  | int32 value =>
      obtain rfl := Option.some.inj h
      exact ⟨rfl, value.toInt, decimalOf_toString _, ⟨value.le_toInt, value.toInt_lt⟩, rfl⟩
  | uint32 value =>
      obtain rfl := Option.some.inj h
      have hsize : value.toNat < 2 ^ 32 := value.toNat_lt
      exact ⟨rfl, (value.toNat : Int), decimalOf_natToString _, ⟨by omega, by omega⟩, rfl⟩
  | string _ => simp [RbusValue.type] at htype
  | boolean _ => simp [RbusValue.type] at htype
  | int64 _ => simp [RbusValue.type] at htype
  | uint64 _ => simp [RbusValue.type] at htype
  | single _ => simp [RbusValue.type] at htype
  | double _ => simp [RbusValue.type] at htype
  | other => simp [RbusValue.type] at htype

/-! ### `ParseConfigValue` -/

/-- An update refuses a text that does not convert, sends the converted value, or finds the text equal
to the printed value. -/
theorem sendUpdate_cases (env : Env) (paramName configValue : Str) (paramType : RbusValueType)
    (paramValue : Str) (rebootValue rfcRebootCronNeeded : Bool) (st : St) :
    let run := sendUpdate env paramName configValue paramType paramValue rebootValue
      rfcRebootCronNeeded st
    (newValue env paramType configValue = none ∧ run = .ok (true, rfcRebootCronNeeded) st) ∨
      (∃ new cron, newValue env paramType configValue = some new ∧
        run = .ok (true, cron) (st.call (.rbusSet paramName new))) ∨
      (paramValue = configValue ∧ run = .ok (true, rfcRebootCronNeeded) st) := by
  simp only [sendUpdate]
  by_cases hsame : paramValue = configValue
  · rw [if_neg (not_not.mpr hsame)]
    split
    · cases newValue env paramType configValue with
      | none => exact Or.inl ⟨rfl, rfl⟩
      | some new => exact Or.inr (Or.inl ⟨new, _, rfl, rfl⟩)
    · exact Or.inr (Or.inr ⟨hsame, rfl⟩)
  · rw [if_pos hsame]
    cases newValue env paramType configValue with
    | none => exact Or.inl ⟨rfl, rfl⟩
    | some new =>
        simp only [St.rbusSet]
        split <;> next heq =>
          obtain ⟨-, rfl⟩ := Prod.mk.inj heq
          exact Or.inr (Or.inl ⟨new, _, rfl, rfl⟩)

/-- What `ParseConfigValue` does with a parameter that it reads as a 32-bit integer. -/
theorem parseConfigValue_of_reads {env : Env} {configKey : Str} {st : St} {rbusValue : RbusValue}
    (hreads : ParseReads env configKey st rbusValue)
    (htype : rbusValue.type = .int32 ∨ rbusValue.type = .uint32) (configValue : Str)
    (rebootValue rfcRebootCronNeeded : Bool) :
    ∃ paramValue st', rbusValue.paramValue = some paramValue ∧ Extends IsRead st.calls st'.calls ∧
      parseConfigValue env configKey configValue rebootValue rfcRebootCronNeeded st =
        sendUpdate env (paramNameOf configKey) configValue rbusValue.type paramValue rebootValue
          rfcRebootCronNeeded st' := by
  obtain ⟨hopen, _, st₁, _, st₂, hfailOver, happlied, hunified, hown, hget⟩ := hreads
  obtain ⟨paramValue, hprinted⟩ : ∃ paramValue, rbusValue.paramValue = some paramValue := by
    cases rbusValue <;> simp [RbusValue.type] at htype <;> exact ⟨_, rfl⟩
  have hreads₁ : Extends IsRead (st.call .rbusOpen).calls st₁.calls := by
    simpa only [hfailOver, Exec.state_ok] using switchText_extends env wanFailOverSupportKey (st.call .rbusOpen)
  have hreads₂ : Extends IsRead st₁.calls st₂.calls := by
    simpa only [hunified, Exec.state_ok] using switchText_extends env wanUnificationKey st₁
  have hupdate : updateParam env (paramNameOf configKey) configValue rebootValue rfcRebootCronNeeded
      st₂ = sendUpdate env (paramNameOf configKey) configValue rbusValue.type paramValue rebootValue
        rfcRebootCronNeeded (st₂.call (.rbusGet (paramNameOf configKey))) := by
    simp only [updateParam, St.rbusGet, hget]
    cases rbusValue <;> simp [RbusValue.type] at htype <;>
      exact Option.some.inj hprinted ▸ rfl
  refine ⟨paramValue, st₂.call (.rbusGet (paramNameOf configKey)), hprinted, ?_, ?_⟩
  · exact (Extends.snoc isRead_rbusOpen).trans
      (hreads₁.trans (hreads₂.trans (.snoc (isRead_rbusGet _))))
  · simp only [parseConfigValue, St.rbusOpen, hopen, parseOpened, hfailOver, Exec.bind_ok,
      if_neg happlied, parseUnified, hunified, if_neg hown, hupdate]

/-- With 64 bits to an `unsigned long`, a conversion to 32 bits fails by throwing. -/
theorem newValue_eq_none_iff {env : Env} (hwidth : env.ulongWidth = 64) {type : RbusValueType}
    (htype : type = .int32 ∨ type = .uint32) (value : Str) :
    newValue env type value = none ↔ Throws type value := by
  rcases htype with rfl | rfl
  · exact Option.map_eq_none_iff
  · rw [newValue, hwidth]
    exact Option.map_eq_none_iff

theorem parseExactOrRefused_iff {env : Env} (hwidth : env.ulongWidth = 64) {configKey : Str}
    (configValue : Str) {st : St} {rbusValue : RbusValue}
    (hreads : ParseReads env configKey st rbusValue)
    (htype : rbusValue.type = .int32 ∨ rbusValue.type = .uint32) (reports : Bool → Prop)
    (rebootValue rfcRebootCronNeeded : Bool) :
    ParseExactOrRefused reports env configKey configValue rebootValue rfcRebootCronNeeded st rbusValue ↔
      Denotes rbusValue.type configValue ∨ (reports true ∧ Throws rbusValue.type configValue) := by
  obtain ⟨paramValue, st', hprinted, hextends, hrun⟩ := parseConfigValue_of_reads hreads htype configValue
    rebootValue rfcRebootCronNeeded
  have hheld := exact_of_paramValue htype hprinted
  unfold ParseExactOrRefused
  rw [hrun, ← newValue_eq_none_iff hwidth htype configValue]
  obtain ⟨hnew, hend⟩ | ⟨new, cron, hnew, hend⟩ | ⟨rfl, hend⟩ := sendUpdate_cases env
    (paramNameOf configKey) configValue rbusValue.type paramValue rebootValue rfcRebootCronNeeded st'
  · rw [hend]
    constructor
    · rintro ⟨_, _, heq, ⟨calls, new, -, -, hexact⟩ | ⟨-, hexact | hreport⟩⟩
      · exact Or.inl hexact.denotes
      · exact Or.inl hexact.denotes
      · obtain ⟨rfl, -⟩ := Exec.ok.inj heq
        exact Or.inr ⟨hreport, hnew⟩
    · rintro (hdenotes | ⟨hreport, -⟩)
      · obtain ⟨new, hsome, -⟩ := newValue_of_denotes hwidth hdenotes
        exact absurd (hsome.symm.trans hnew) (Option.some_ne_none new)
      · exact ⟨_, _, rfl, Or.inr ⟨hextends, Or.inr hreport⟩⟩
  · rw [hend]
    constructor
    · rintro ⟨_, _, heq, ⟨calls, new, -, -, hexact⟩ | ⟨hreadsOnly, -⟩⟩
      · exact Or.inl hexact.denotes
      · obtain ⟨-, rfl⟩ := Exec.ok.inj heq
        exact absurd hreadsOnly (not_extends_of_set hextends)
    · rintro (hdenotes | ⟨-, hnone⟩)
      · obtain ⟨new', hsome, hexact⟩ := newValue_of_denotes hwidth hdenotes
        obtain rfl := Option.some.inj (hnew.symm.trans hsome)
        exact ⟨_, _, rfl, Or.inl ⟨_, new, hextends, rfl, hexact⟩⟩
      · exact absurd (hnew.symm.trans hnone) (Option.some_ne_none new)
  · rw [hend]
    constructor
    · intro _
      exact Or.inl hheld.denotes
    · intro _
      exact ⟨_, _, rfl, Or.inr ⟨hextends, Or.inl hheld⟩⟩

/-- **Integer parameters are stored exactly or refused** by `set_RFCProperty` when the text denotes an
integer of the parameter's type, and for no other text; so they are by `ParseConfigValue`, which, when
its conversion throws, sets nothing but returns `true`. -/
theorem integerParams_iff (env : Env) (hwidth : env.ulongWidth = 64) (key value : Str) (st : St)
    (rbusValue : RbusValue) :
    (SetReads env key st rbusValue → rbusValue.type.IsInteger →
      (SetExactOrRefused env key value st rbusValue ↔ Denotes rbusValue.type value)) ∧
    (ParseReads env key st rbusValue → rbusValue.type = .int32 ∨ rbusValue.type = .uint32 →
      ∀ rebootValue rfcRebootCronNeeded,
        (ParseExactOrRefused (· = false) env key value rebootValue rfcRebootCronNeeded st rbusValue ↔
          Denotes rbusValue.type value) ∧
        (ParseExactOrRefused (fun _ => True) env key value rebootValue rfcRebootCronNeeded st rbusValue ↔
          Denotes rbusValue.type value ∨ Throws rbusValue.type value)) := by
  refine ⟨fun hreads htype => setExactOrRefused_iff hwidth value hreads htype, ?_⟩
  intro hreads htype rebootValue rfcRebootCronNeeded
  constructor
  · rw [parseExactOrRefused_iff hwidth value hreads htype]
    simp
  · rw [parseExactOrRefused_iff hwidth value hreads htype]
    simp

/-! ### A parameter of type int -/

/-- Every parameter is an int that is 7. -/
def allSeven : Env := { allTrue with rbusGet := fun _ _ => some (.int32 7), ulongWidth := 64 }

def freshSt : St := ⟨.fresh, [], false⟩

theorem integerParams_twelve :
    SetExactOrRefused allSeven "Device.X".toList "12".toList freshSt (.int32 7) ∧
      ParseExactOrRefused (· = false) allSeven "Device.X".toList "12".toList true false freshSt
        (.int32 7) := by
  have htext : "12".toList = ['1', '2'] := by simp
  have hdenotes : Denotes .int32 "12".toList := by
    rw [htext]
    exact ⟨12, by decide, by decide, by decide⟩
  have hset : SetReads allSeven "Device.X".toList freshSt (.int32 7) := ⟨rfl, rfl⟩
  have hparse : ParseReads allSeven "Device.X".toList freshSt (.int32 7) := by
    refine ⟨rfl, [], _, [], _, rfl, ?_, rfl, ?_, rfl⟩
    · exact fun h => absurd h.1 (by simp [trueText])
    · exact fun h => absurd h.1 (by simp [trueText])
  obtain ⟨hstored, hparsed⟩ :=
    integerParams_iff allSeven rfl "Device.X".toList "12".toList freshSt (.int32 7)
  exact ⟨(hstored hset (Or.inl rfl)).mpr hdenotes,
    ((hparsed hparse (Or.inl rfl) true false).1).mpr hdenotes⟩

/-- Of `12abc` the number in front is stored, with success. -/
theorem not_setExactOrRefused :
    SetReads allSeven "Device.X".toList freshSt (.int32 7) ∧
      setRFCProperty allSeven "Device.X".toList "12abc".toList freshSt =
        .ok .success (((freshSt.call .rbusOpen).call (.rbusGet "Device.X".toList)).call
          (.rbusSet "Device.X".toList (.int32 12))) ∧
      ¬ SetExactOrRefused allSeven "Device.X".toList "12abc".toList freshSt (.int32 7) := by
  have hset : SetReads allSeven "Device.X".toList freshSt (.int32 7) := ⟨rfl, rfl⟩
  have htext : "12abc".toList = ['1', '2', 'a', 'b', 'c'] := by simp
  have hconverted : newValue allSeven .int32 "12abc".toList = some (.int32 12) := by
    rw [htext]
    decide
  have hnone : decimalOf "12abc".toList = none := by
    rw [htext]
    decide
  refine ⟨hset, ?_, ?_⟩
  · rw [setRFCProperty_of_reads hset (by decide), RbusValue.type, hconverted]
    rfl
  · rw [setExactOrRefused_iff rfl _ hset (Or.inl rfl)]
    rintro ⟨n, hn, -⟩
    exact absurd (hn.symm.trans hnone) (Option.some_ne_none n)

end RfcMgr.Rdkb
