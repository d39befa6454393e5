import Mathlib.Algebra.Ring.Nat
import Mathlib.Algebra.Ring.Int.Defs
import RfcMgr.Download
import RfcMgr.CallHistory

/-! The parameters behind rbus, which the RDKB build reads and writes in place of the hostif, and the
calls of rfc_common.cpp that reach them.

The bus may answer every call as it likes, with regard to all calls before it: whether it opens, what a
get delivers and whether a set is taken. `rbus_close` has no answer and is left out. -/

namespace RfcMgr.Rdkb

open CallHistory

/-- `rbusValueType_t`, as far as the manager tells the types apart. -/
inductive RbusValueType where
  | string | boolean | int32 | uint32 | int64 | uint64 | single | double | other
  deriving DecidableEq

/-- A string may be a null pointer. A floating-point value carries its `std::to_string` text, the only
form in which it is read. -/
inductive RbusValue where
  | string (text : Option Str)
  | boolean (value : Bool)
  | int32 (value : Int32)
  | uint32 (value : UInt32)
  | int64 (value : Int64)
  | uint64 (value : UInt64)
  | single (printed : Str)
  | double (printed : Str)
  | other
  deriving DecidableEq

/-- `rbusValue_GetType`. -/
def RbusValue.type : RbusValue → RbusValueType
  | .string _ => .string
  | .boolean _ => .boolean
  | .int32 _ => .int32
  | .uint32 _ => .uint32
  | .int64 _ => .int64
  | .uint64 _ => .uint64
  | .single _ => .single
  | .double _ => .double
  | .other => .other

inductive RbusCall where
  | rbusOpen
  | rbusGet (key : Str)
  | rbusSet (key : Str) (value : RbusValue)
  deriving DecidableEq

/-- The call is a set of the parameter. -/
def RbusCall.Sets (key : Str) : RbusCall → Prop
  | .rbusSet key' _ => key' = key
  | _ => False

def RbusCall.isSet : RbusCall → Bool
  | .rbusSet _ _ => true
  | _ => false

/-- What a run meets outside the process. -/
structure Env where
  rbusOpen : List RbusCall → Bool
  /-- The value that a successful get delivers. -/
  rbusGet : List RbusCall → Str → Option RbusValue
  rbusSet : List RbusCall → Str → RbusValue → Bool
  /-- The text of `bootstrap.ini`, when it opens. -/
  bsStore : List RbusCall → Option Str
  /-- The text of the number that `std::stof` and `std::stod` make of a string, when they do not throw. -/
  stof : Str → Option Str
  stod : Str → Option Str
  /-- The width of `unsigned long`. -/
  ulongWidth : Nat
  /-- The buffers and the exchanges of `ProcessXconfUrl`. -/
  validationDwnLocAllocated : Bool
  validationHeaderAllocated : Bool
  validation : Nat → Exchange

/-- The fields of `RuntimeFeatureControlProcessor` that the RDKB apply step reads or writes. -/
structure Processor where
  rfcKeyAndValueMap : ConfigMap
  rfcState : RfcState
  lastFirmware : Str
  firmwareVersion : Str

structure St where
  proc : Processor
  /-- The calls to rbus so far, in order. -/
  calls : List RbusCall
  /-- The reboot script has been started. -/
  rebootScheduled : Bool

namespace St

def call (st : St) (c : RbusCall) : St := { st with calls := st.calls ++ [c] }

def rbusOpen (env : Env) (st : St) : Bool × St := (env.rbusOpen st.calls, st.call .rbusOpen)

def rbusGet (env : Env) (st : St) (key : Str) : Option RbusValue × St :=
  (env.rbusGet st.calls key, st.call (.rbusGet key))

def rbusSet (env : Env) (st : St) (key : Str) (value : RbusValue) : Bool × St :=
  (env.rbusSet st.calls key value, st.call (.rbusSet key value))

@[simp] theorem call_calls (st : St) (c : RbusCall) : (st.call c).calls = st.calls ++ [c] := rfl

end St

/-! ### Numbers in texts -/

/-- `std::isspace` in the C locale. -/
def isSpace (c : Char) : Bool := c == ' ' || ('\t' ≤ c && c ≤ '\r')

/-- What `strtol` takes from the front of a string: the sign and the digits behind the white space. -/
def leadingNumber (str : Str) : Option (Bool × Nat) :=
  let rest := str.dropWhile isSpace
  let negative := rest.head? == some '-'
  let unsigned := if negative || rest.head? == some '+' then rest.tail else rest
  let digits := unsigned.takeWhile Char.isDigit
  if digits = [] then none else some (negative, Nat.ofDigitChars 10 digits 0)

/-- `std::stoi` and `std::stoll` for a result of `width` bits; they throw without a number and when it
is out of range. -/
def stoSigned (width : Nat) (str : Str) : Option Int :=
  (leadingNumber str).bind fun (negative, magnitude) =>
    let n : Int := if negative then -magnitude else magnitude
    if -2 ^ (width - 1) ≤ n ∧ n < 2 ^ (width - 1) then some n else none

/-- `std::stoul` and `std::stoull`: a minus sign negates in the unsigned type. -/
def stoUnsigned (width : Nat) (str : Str) : Option Nat :=
  (leadingNumber str).bind fun (negative, magnitude) =>
    if magnitude < 2 ^ width then
      some (if negative then (2 ^ width - magnitude) % 2 ^ width else magnitude)
    else none

def trueText : Str := "true".toList
def falseText : Str := "false".toList

def boolText (b : Bool) : Str := if b then trueText else falseText

/-- The switch over the type that fills `newValue`; `none` when a conversion throws, and for the types
that have no case. -/
def newValue (env : Env) (type : RbusValueType) (value : Str) : Option RbusValue :=
  match type with
  | .string => some (.string (some value))
  | .boolean => some (.boolean (value == trueText || value == "1".toList))
  | .int32 => (stoSigned 32 value).map fun n => .int32 (Int32.ofInt n)
  | .uint32 => (stoUnsigned env.ulongWidth value).map fun n => .uint32 (UInt32.ofNat n)
  | .int64 => (stoSigned 64 value).map fun n => .int64 (Int64.ofInt n)
  | .uint64 => (stoUnsigned 64 value).map fun n => .uint64 (UInt64.ofNat n)
  | .single => (env.stof value).map .single
  | .double => (env.stod value).map .double
  | .other => none

/-! ### Reading and setting a parameter -/

/-- `none` is `READ_RFC_FAILURE`. Strings, booleans and 32-bit integers can be read. -/
def readRFCProperty (env : Env) (key : Str) (datasize : Nat) (st : St) : Option Str × St :=
  match st.rbusOpen env with
  | (false, st) => (none, st)
  | (true, st) =>
      match st.rbusGet env key with
      | (some (.string (some strValue)), st) => (some (Device.readValue strValue datasize), st)
      | (some (.boolean value), st) => (some ((boolText value).take (datasize - 1)), st)
      | (some (.int32 value), st) => (some ((toString value.toInt).toList.take (datasize - 1)), st)
      | (_, st) => (none, st)

/-- The parameter is set with the type that it has. A conversion that throws is not caught. -/
def setRFCProperty (env : Env) (key value : Str) (st : St) : Exec St WdmpStatus :=
  match st.rbusOpen env with
  | (false, st) => .ok .failure st
  | (true, st) =>
      match st.rbusGet env key with
      | (none, st) => .ok .failure st
      | (some rbusValue, st) =>
          if rbusValue.type = .other then .ok .failure st
          else
            match newValue env rbusValue.type value with
            | none => .crash st
            | some new =>
                match st.rbusSet env key new with
                | (true, st) => .ok .success st
                | (false, st) => .ok .failure st

/-- A set of `key` to `value` that is made now gets as far as its `rbus_set`: the bus opens, and the
parameter has a type that the value converts to. -/
def Sends (env : Env) (key value : Str) (st : St) : Prop :=
  env.rbusOpen st.calls = true ∧
    ∃ rbusValue, env.rbusGet (st.call .rbusOpen).calls key = some rbusValue ∧
      (newValue env rbusValue.type value).isSome

/-! ### The calls that are made -/

/-- The calls that set nothing. -/
def IsRead (c : RbusCall) : Prop := c.isSet = false

theorem not_sets_of_isRead {key : Str} {c : RbusCall} (h : IsRead c) : ¬ c.Sets key := by
  cases c with
  | rbusOpen => exact id
  | rbusGet key' => exact id
  | rbusSet key' value => cases h

theorem isRead_rbusOpen : IsRead .rbusOpen := rfl
theorem isRead_rbusGet (key : Str) : IsRead (.rbusGet key) := rfl

theorem readRFCProperty_extends (env : Env) (key : Str) (datasize : Nat) (st : St) :
    Extends IsRead st.calls (readRFCProperty env key datasize st).2.calls := by
  have hopen : Extends IsRead st.calls (st.call .rbusOpen).calls := .snoc isRead_rbusOpen
  have hget : Extends IsRead st.calls ((st.call .rbusOpen).call (.rbusGet key)).calls :=
    hopen.trans (.snoc (isRead_rbusGet key))
  simp only [readRFCProperty, St.rbusOpen]
  split
  next heq =>
    obtain ⟨-, rfl⟩ := Prod.mk.inj heq
    exact hopen
  next heq =>
    obtain ⟨-, rfl⟩ := Prod.mk.inj heq
    simp only [St.rbusGet]
    split <;> next hreply => exact (Prod.mk.inj hreply).2 ▸ hget

/-- **The calls of a set**: an `rbus_set` of the parameter at its end, exactly when it gets that far. -/
theorem setRFCProperty_calls (env : Env) (key value : Str) (st : St) :
    ¬ Sends env key value st ∧ Extends IsRead st.calls (setRFCProperty env key value st).state.calls ∨
      Sends env key value st ∧ ∃ calls new, Extends IsRead st.calls calls ∧
        (setRFCProperty env key value st).state.calls = calls ++ [.rbusSet key new] := by
  have hopen : Extends IsRead st.calls (st.call .rbusOpen).calls := .snoc isRead_rbusOpen
  have hget : Extends IsRead st.calls ((st.call .rbusOpen).call (.rbusGet key)).calls :=
    hopen.trans (.snoc (isRead_rbusGet key))
  simp only [setRFCProperty, St.rbusOpen, Sends]
  cases hopened : env.rbusOpen st.calls with
  | false => exact Or.inl ⟨fun h => Bool.false_ne_true h.1, hopen⟩
  | true =>
      simp only [St.rbusGet, true_and]
      cases hvalue : env.rbusGet (st.call .rbusOpen).calls key with
      | none => exact Or.inl ⟨by simp, hget⟩
      | some rbusValue =>
          simp only [Option.some.injEq, exists_eq_left']
          by_cases htype : rbusValue.type = .other
          · rw [if_pos htype]
            exact Or.inl ⟨by simp [htype, newValue], hget⟩
          · rw [if_neg htype]
            cases hnew : newValue env rbusValue.type value with
            | none => exact Or.inl ⟨by simp, hget⟩
            | some new =>
                refine Or.inr ⟨rfl, _, new, hget, ?_⟩
                simp only [St.rbusSet]
                split <;> next hreply => exact (Prod.mk.inj hreply).2 ▸ rfl

theorem setRFCProperty_extends (env : Env) (key value : Str) (st : St) :
    Extends (fun c => IsRead c ∨ c.Sets key) st.calls (setRFCProperty env key value st).state.calls := by
  obtain ⟨-, hreads⟩ | ⟨-, calls, new, hreads, hcalls⟩ := setRFCProperty_calls env key value st
  · exact hreads.imp fun _ hc => Or.inl hc
  · rw [hcalls]
    exact (hreads.imp fun _ hc => Or.inl hc).trans (.snoc (Or.inr rfl))

theorem made_of_reads (key : Str) {s t : List RbusCall} (h : Extends IsRead s t) :
    Made (RbusCall.Sets key) t ↔ Made (RbusCall.Sets key) s :=
  (h.imp fun _ hc => not_sets_of_isRead hc).made_iff

end RfcMgr.Rdkb
