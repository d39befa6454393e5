import RfcMgr.RfcCommon
import Mathlib.Logic.Function.Basic

/-! The device behind the manager: the files of `/opt/secure/RFC/` and the TR-181 parameters that the
hostif serves, with the calls of rfcapi.cpp and rfc_common.cpp that reach them (STB build).

The hostif may answer every call as it likes: its replies depend on the parameter and on how often
that parameter was asked for or set before. A value it serves is the one in the RFC store or, for a
parameter the store does not hold, the device's own. -/

namespace RfcMgr

/-- `WDMP_STATUS`: the codes the manager tells apart, and the rest. -/
inductive WdmpStatus where
  | success
  | failure
  | errDefaultValue
  | other (statusCode : Int)
  deriving DecidableEq

/-- `DATA_TYPE`. -/
inductive DataType where
  | string | int | uint | boolean | datetime | base64 | long | ulong | float | double | byte | none
  | blob
  deriving DecidableEq

/-- What `getRFCParameter` fills in of `RFC_ParamData_t`. -/
structure RfcParam where
  value : Str
  type : DataType

/-- The `memset` before the call; `WDMP_STRING` is 0. -/
def RfcParam.zero : RfcParam := ⟨[], .string⟩

/-- A hostif reply to a get: its status code, whether it carries a value, and its data type. -/
structure GetReply where
  status : WdmpStatus
  hasValue : Bool
  type : Option DataType

structure Hostif where
  getReply : Str → Nat → GetReply
  setReply : Str → Nat → Str → DataType → WdmpStatus
  /-- The value of a parameter that the RFC store does not override. -/
  dflt : Str → Str

structure Device where
  files : Str → Option Str
  rfcStore : Str → Option Str
  /-- How often a parameter was asked for. -/
  gets : Str → Nat
  /-- How often a set of a parameter was sent. -/
  sets : Str → Nat

def clearDBKey : Str := "Device.DeviceInfo.X_RDKCENTRAL-COM_RFC.Control.ClearDB".toList

/-- `MAX_PARAM_LEN`, the size of the buffer for a value. -/
def maxParamLen : Nat := 2048

namespace Device

/-- The RFC store after an accepted set. A set of `ClearDB` removes every parameter. -/
def storeAfterSet (dev : Device) (key value : Str) : Str → Option Str :=
  if key = clearDBKey then fun _ => none else Function.update dev.rfcStore key (some value)

def getRFCParameter (h : Hostif) (dev : Device) (key : Str) : WdmpStatus × RfcParam × Device :=
  -- wildcard names are refused before anything is sent
  if key.getLast? = some '.' then (.failure, .zero, dev)
  else
    let reply := h.getReply key (dev.gets key)
    let value := if reply.hasValue then
      ((dev.rfcStore key).getD (h.dflt key)).take (maxParamLen - 1) else []
    (reply.status, ⟨value, reply.type.getD .string⟩,
      { dev with gets := Function.update dev.gets key (dev.gets key + 1) })

def setRFCParameter (h : Hostif) (dev : Device) (key value : Str) (type : DataType) :
    WdmpStatus × Device :=
  let status := h.setReply key (dev.sets key) value type
  (status, { dev with
    sets := Function.update dev.sets key (dev.sets key + 1)
    rfcStore := if status = .success then dev.storeAfterSet key value else dev.rfcStore })

/-- What `read_RFCProperty` leaves in a buffer of `datasize` bytes: one pair of quotes is stripped. -/
def readValue (value : Str) (datasize : Nat) : Str :=
  if 2 ≤ value.length ∧ value.head? = some '"' ∧ value.getLast? = some '"' then
    ((value.drop 1).take (datasize - 1)).take (value.length - 2)
  else value.take (datasize - 1)

/-- `none` is `READ_RFC_FAILURE`. -/
def readRFCProperty (h : Hostif) (dev : Device) (key : Str) (datasize : Nat) : Option Str × Device :=
  let (status, param, dev') := dev.getRFCParameter h key
  if status = .success ∨ status = .errDefaultValue then (some (readValue param.value datasize), dev')
  else (none, dev')

/-- The status that `set_RFCProperty` returns is the one of its get: the status of the set lives in an
inner variable of the same name. -/
def setRFCProperty (h : Hostif) (dev : Device) (key value : Str) : WdmpStatus × Device :=
  let (status, param, dev') := dev.getRFCParameter h key
  if param.type ≠ .none then (status, (dev'.setRFCParameter h key value param.type).2)
  else (status, dev')

/-- The hostif takes a set of `key` to `value` when it is sent now: the get before it names a type, and
the set itself succeeds. -/
def Accepts (h : Hostif) (dev : Device) (key value : Str) : Prop :=
  (dev.getRFCParameter h key).2.1.type ≠ .none ∧
    h.setReply key (dev.sets key) value (dev.getRFCParameter h key).2.1.type = .success

instance (h : Hostif) (dev : Device) (key value : Str) : Decidable (dev.Accepts h key value) :=
  inferInstanceAs (Decidable (_ ∧ _))

/-! ### What the calls leave alone -/

section Frame

variable (h : Hostif) (dev : Device) (key value : Str) (datasize : Nat) (type : DataType)

theorem getRFCParameter_files : (dev.getRFCParameter h key).2.2.files = dev.files := by
  unfold getRFCParameter
  split <;> rfl

theorem getRFCParameter_rfcStore : (dev.getRFCParameter h key).2.2.rfcStore = dev.rfcStore := by
  unfold getRFCParameter
  split <;> rfl

theorem getRFCParameter_sets : (dev.getRFCParameter h key).2.2.sets = dev.sets := by
  unfold getRFCParameter
  split <;> rfl

theorem readRFCProperty_snd :
    (dev.readRFCProperty h key datasize).2 = (dev.getRFCParameter h key).2.2 := by
  simp only [readRFCProperty]
  split <;> rfl

@[simp] theorem readRFCProperty_files : (dev.readRFCProperty h key datasize).2.files = dev.files := by
  rw [readRFCProperty_snd, getRFCParameter_files]

@[simp] theorem readRFCProperty_rfcStore :
    (dev.readRFCProperty h key datasize).2.rfcStore = dev.rfcStore := by
  rw [readRFCProperty_snd, getRFCParameter_rfcStore]

@[simp] theorem setRFCProperty_files : (dev.setRFCProperty h key value).2.files = dev.files := by
  have hget := getRFCParameter_files h dev key
  simp only [setRFCProperty]
  split
  · exact hget
  · exact hget

theorem setRFCProperty_of_accepts (haccepts : dev.Accepts h key value) :
    (dev.setRFCProperty h key value).2.rfcStore = dev.storeAfterSet key value := by
  obtain ⟨htype, hset⟩ := haccepts
  have hstore := getRFCParameter_rfcStore h dev key
  have hsets := getRFCParameter_sets h dev key
  simp only [setRFCProperty, setRFCParameter]
  rw [if_pos htype, hsets, if_pos hset, storeAfterSet, storeAfterSet, hstore]

theorem setRFCProperty_of_not_accepts (hrefused : ¬ dev.Accepts h key value) :
    (dev.setRFCProperty h key value).2.rfcStore = dev.rfcStore := by
  have hstore := getRFCParameter_rfcStore h dev key
  have hsets := getRFCParameter_sets h dev key
  simp only [setRFCProperty, setRFCParameter]
  split
  next htype => rw [hsets, if_neg fun hset => hrefused ⟨htype, hset⟩, hstore]
  · exact hstore

/-- A set leaves the RFC store as it was or leads to the store of an accepted set. -/
theorem setRFCProperty_rfcStore :
    (dev.setRFCProperty h key value).2.rfcStore = dev.rfcStore ∨
      (dev.setRFCProperty h key value).2.rfcStore = dev.storeAfterSet key value := by
  by_cases haccepts : dev.Accepts h key value
  · exact .inr (setRFCProperty_of_accepts h dev key value haccepts)
  · exact .inl (setRFCProperty_of_not_accepts h dev key value haccepts)

end Frame

/-! ### The calls a parameter has had -/

/-- The parameter has been asked for and set equally often on both devices, so its next call gets the
same answer. -/
structure SameCalls (key : Str) (dev dev' : Device) : Prop where
  gets : dev'.gets key = dev.gets key
  sets : dev'.sets key = dev.sets key

namespace SameCalls

variable {key : Str} {dev dev' dev'' : Device} (H : Hostif)

theorem refl (key : Str) (dev : Device) : SameCalls key dev dev := ⟨rfl, rfl⟩

theorem symm (h : SameCalls key dev dev') : SameCalls key dev' dev := ⟨h.gets.symm, h.sets.symm⟩

theorem trans (h : SameCalls key dev dev') (h' : SameCalls key dev' dev'') :
    SameCalls key dev dev'' := ⟨h'.gets.trans h.gets, h'.sets.trans h.sets⟩

theorem get_of_ne (dev : Device) {other : Str} (hne : key ≠ other) :
    SameCalls key dev (dev.getRFCParameter H other).2.2 := by
  refine ⟨?_, congrFun (getRFCParameter_sets H dev other) key⟩
  unfold getRFCParameter
  split
  · rfl
  · exact Function.update_of_ne hne ..

theorem read_of_ne (dev : Device) {other : Str} (hne : key ≠ other) (datasize : Nat) :
    SameCalls key dev (dev.readRFCProperty H other datasize).2 := by
  rw [readRFCProperty_snd]
  exact get_of_ne H dev hne

theorem set_of_ne (dev : Device) {other : Str} (hne : key ≠ other) (value : Str) :
    SameCalls key dev (dev.setRFCProperty H other value).2 := by
  have hget := get_of_ne H dev hne
  simp only [setRFCProperty, setRFCParameter]
  split
  · exact ⟨hget.gets, (Function.update_of_ne hne ..).trans hget.sets⟩
  · exact hget

variable {H}

/-- What the next get of the parameter says, its value apart. -/
theorem get (h : SameCalls key dev dev') :
    (dev'.getRFCParameter H key).1 = (dev.getRFCParameter H key).1 ∧
      (dev'.getRFCParameter H key).2.1.type = (dev.getRFCParameter H key).2.1.type ∧
      SameCalls key (dev.getRFCParameter H key).2.2 (dev'.getRFCParameter H key).2.2 := by
  unfold getRFCParameter
  split
  · exact ⟨rfl, rfl, h⟩
  · refine ⟨by rw [h.gets], by rw [h.gets], ?_, h.sets⟩
    simp only [Function.update_self, h.gets]

theorem read (h : SameCalls key dev dev') (datasize : Nat) :
    SameCalls key (dev.readRFCProperty H key datasize).2
      (dev'.readRFCProperty H key datasize).2 := by
  rw [readRFCProperty_snd, readRFCProperty_snd]
  exact h.get.2.2

theorem read_eq_none (h : SameCalls key dev dev') (datasize : Nat) :
    (dev'.readRFCProperty H key datasize).1 = none ↔
      (dev.readRFCProperty H key datasize).1 = none := by
  simp only [readRFCProperty, h.get.1]
  split
  · simp
  · simp

theorem set (h : SameCalls key dev dev') (value : Str) :
    SameCalls key (dev.setRFCProperty H key value).2
      (dev'.setRFCProperty H key value).2 := by
  obtain ⟨-, htype, hgets, hsets⟩ := h.get (H := H)
  simp only [setRFCProperty, setRFCParameter, htype]
  split
  · refine ⟨hgets, ?_⟩
    simp only [Function.update_self, hsets]
  · exact ⟨hgets, hsets⟩

theorem accepts (h : SameCalls key dev dev') (value : Str) :
    dev'.Accepts H key value ↔ dev.Accepts H key value := by
  rw [Accepts, Accepts, h.get.2.1, h.sets]

end SameCalls

end Device

end RfcMgr
