import RfcMgr.RfcCommon
import Mathlib.Data.List.DropRight

/-! The parsed JSON the manager walks over: cJSON items and the accessors of json_parse.c. The parser
itself is cJSON's; a response body enters the model as what `ParseJsonStr` makes of it. -/

namespace RfcMgr

/-- A cJSON item. A number carries its `"%f"` text, the only form in which it is read. -/
inductive Json where
  | null
  | bool (value : Bool)
  | number (printed : Str)
  | string (valuestring : Str)
  | array (items : List Json)
  | object (members : List (Str × Json))

/-- What `ParseJsonStr` returns for a response body; `none` when it does not parse. -/
abbrev Body := Option Json

namespace Json

/-- The `child` list of an item with each child's `string`, which array items do not have. -/
def children : Json → List (Option Str × Json)
  | .array items => items.map fun item => (none, item)
  | .object members => members.map fun member => (some member.1, member.2)
  | _ => []

/-- `child->valuestring`, a null pointer on every item that is not a string. -/
def valuestring : Json → Option Str
  | .string value => some value
  | _ => none

/-- `cJSON_GetObjectItem`: the first child of that name, compared without regard to case. -/
def getJsonItem (item : Json) (valToGet : Str) : Option Json :=
  (item.children.find? fun child =>
    match child.1 with
    | some name => stringCaseCompare name valToGet
    | none => false).map (·.2)

/-- The text of a number without trailing zeros and a then trailing point. -/
def trimNumber (printed : Str) : Str :=
  let digits := printed.rdropWhile (· == '0')
  if digits.getLast? = some '.' then digits.dropLast else digits

/-- The value `getitemval` prints, when the item has one. -/
def itemVal : Json → Option Str
  | .string value => some value
  | .bool true => some "true".toList
  | .bool false => some "false".toList
  | .number printed => some (trimNumber printed)
  | _ => none

/-- `GetJsonVal`: the length of the whole value and what fits into `maxlen` bytes of it. -/
def getJsonVal (item : Json) (valToGet : Str) (maxlen : Nat) : Nat × Str :=
  match (item.getJsonItem valToGet).bind itemVal with
  | some value => (value.length, value.take (maxlen - 1))
  | none => (0, [])

/-- `IsJsonArray` and `GetJsonArrayItem` over all indices. -/
def arrayItems : Json → Option (List Json)
  | .array items => some items
  | _ => none

end Json

/-- The features array of a response, when `featureControl.features` is one. -/
def getRuntimeFeatureControlJSON (json : Json) : Option (List Json) :=
  (json.getJsonItem "featureControl".toList).bind fun featureControl =>
    (featureControl.getJsonItem "features".toList).bind Json.arrayItems

/-- The features of a body as the manager gets at them. -/
def Body.features (body : Body) : Option (List Json) := body.bind getRuntimeFeatureControlJSON

/-- The feature of an array as the manager reads it. -/
structure RuntimeFeatureControlObject where
  name : Str
  enable : Bool
  effectiveImmediate : Bool
  featureInstance : Option Str

/-- `RFC_MAX_LEN`, the buffer for names. -/
def rfcMaxLen : Nat := 64

/-- A member read into a buffer of `maxlen` bytes; an empty value counts as missing. -/
def readMember (feature : Json) (member : Str) (maxlen : Nat) : Option Str :=
  let (size, buffer) := feature.getJsonVal member maxlen
  if size = 0 then none else some buffer

/-- `strcasecmp(buffer, "true") == 0 || strcmp(buffer, "1") == 0`. -/
def isTrueText (buffer : Str) : Bool :=
  stringCaseCompare buffer "true".toList || buffer == "1".toList

def getRFCName (feature : Json) : Option Str := readMember feature "name".toList rfcMaxLen

def getRFCEnableParam (feature : Json) : Option Bool :=
  (readMember feature "enable".toList 6).map isTrueText

def getEffectiveImmediateParam (feature : Json) : Option Bool :=
  (readMember feature "effectiveImmediate".toList 6).map isTrueText

def getFeatureInstance (feature : Json) : Option Str :=
  readMember feature "featureInstance".toList rfcMaxLen

/-- The checks a feature passes, in the order of `ProcessJsonResponse`. -/
def readFeature (feature : Json) : Option RuntimeFeatureControlObject :=
  (getRFCName feature).bind fun name =>
    (getRFCEnableParam feature).bind fun enable =>
      (getEffectiveImmediateParam feature).map fun effectiveImmediate =>
        ⟨name, enable, effectiveImmediate, getFeatureInstance feature⟩

end RfcMgr
