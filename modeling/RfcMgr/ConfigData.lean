import RfcMgr.Processor
import RfcMgr.LastInsert

/-! `CreateConfigDataValueMap`: the configData members of all features, read into one map.

The loop over the features breaks off at the first feature without configData, and it builds a
`std::string` from the `valuestring` of every member, a null pointer for a member that is not a
string. Which features are read at all is what the results below turn on. -/

namespace RfcMgr

open LastInsert

def configDataStr : Str := "configData".toList

/-- The key a member is stored under. -/
def normaliseKey (key : Str) : Str := removeSubstring key "tr181.".toList

/-- The inner `while (child)`; `none` is a string built from a null pointer. -/
def insertChildren : List (Option Str × Json) → ConfigMap → Option ConfigMap
  | [], map => some map
  | (some key, .string value) :: next, map => insertChildren next (map.insert (normaliseKey key) value)
  | _ :: _, _ => none

def createConfigDataValueMap : List Json → ConfigMap → Option ConfigMap
  | [], map => some map
  | feature :: features, map =>
      match feature.getJsonItem configDataStr with
      | none => some map
      | some pConfigData =>
          (insertChildren pConfigData.children map).bind (createConfigDataValueMap features)

/-- The key and value of a member that is a named string. -/
def stringMember (child : Option Str × Json) : Option (Str × Str) :=
  match child.1, child.2.valuestring with
  | some key, some value => some (key, value)
  | _, _ => none

/-- The entries the loop of `ProcessJsonResponseB` hands to `ParseConfigValue`, features that fail its
checks and members that are not named strings left out. -/
def parseConfigValueCalls : List Json → List (Str × Str)
  | [] => []
  | feature :: features =>
      match readFeature feature with
      | none => parseConfigValueCalls features
      | some _ =>
          match feature.getJsonItem configDataStr with
          | none => parseConfigValueCalls features
          | some configData =>
              configData.children.filterMap stringMember ++ parseConfigValueCalls features

theorem isEmpty_eq_false {map : ConfigMap} {pair : Str × Str} {earlier later : List (Str × Str)}
    (h : map.toList = earlier ++ pair :: later) : map.isEmpty = false := by
  rw [← Std.TreeMap.isEmpty_toList, h]
  simp

/-! ### What a response gives -/

/-- The configData members of a feature, none when it has no configData. -/
def members (feature : Json) : List (Option Str × Json) :=
  ((feature.getJsonItem configDataStr).map Json.children).getD []

/-- The string values a feature gives. -/
def featureEntries (feature : Json) : List (Str × Str) := (members feature).filterMap stringMember

def responseEntries (features : List Json) : List (Str × Str) := features.flatMap featureEntries

/-- The entries under the keys the map stores them. -/
def storedEntries (features : List Json) : List (Str × Str) :=
  (responseEntries features).map fun e => (normaliseKey e.1, e.2)

/-- Every configData member of the features is a named string. -/
def StringMembers (features : List Json) : Prop :=
  ∀ feature ∈ features, ∀ child ∈ members feature, (stringMember child).isSome

def hasConfigData (feature : Json) : Bool := (feature.getJsonItem configDataStr).isSome

/-- The features before the first one without configData, and those from it on. -/
def visited (features : List Json) : List Json := features.takeWhile hasConfigData
def hidden (features : List Json) : List Json := features.dropWhile hasConfigData

theorem storedEntries_append (fs gs : List Json) :
    storedEntries (fs ++ gs) = storedEntries fs ++ storedEntries gs := by
  simp only [storedEntries, responseEntries, List.flatMap_append, List.map_append]

theorem storedEntries_visited_append_hidden (features : List Json) :
    storedEntries features = storedEntries (visited features) ++ storedEntries (hidden features) := by
  rw [← storedEntries_append, visited, hidden, List.takeWhile_append_dropWhile]

theorem StringMembers.visited {features : List Json} (h : StringMembers features) :
    StringMembers (visited features) :=
  fun feature hf => h feature ((List.takeWhile_subset _) hf)

theorem insertChildren_eq_some {children : List (Option Str × Json)} {map map' : ConfigMap} :
    insertChildren children map = some map' ↔
      (∀ child ∈ children, (stringMember child).isSome) ∧
        map' = insertAll map
          ((children.filterMap stringMember).map fun e => (normaliseKey e.1, e.2)) := by
  induction children generalizing map with
  | nil =>
      simp only [insertChildren, Option.some.injEq, List.not_mem_nil, false_implies, implies_true,
        List.filterMap_nil, List.map_nil, true_and]
      exact eq_comm
  | cons child next ih =>
      obtain ⟨name, item⟩ := child
      cases name with
      | none => simp [insertChildren, stringMember]
      | some key =>
          cases item with
          | string value =>
              rw [insertChildren, ih]
              simp only [List.forall_mem_cons, stringMember, Json.valuestring, Option.isSome_some,
                true_and, List.filterMap_cons, List.map_cons]
              rfl
          | null => simp [insertChildren, stringMember, Json.valuestring]
          | bool _ => simp [insertChildren, stringMember, Json.valuestring]
          | number _ => simp [insertChildren, stringMember, Json.valuestring]
          | array _ => simp [insertChildren, stringMember, Json.valuestring]
          | object _ => simp [insertChildren, stringMember, Json.valuestring]

/-- **What `CreateConfigDataValueMap` does**: it reads the features before the first one without
configData, and gets through when their members are named strings. -/
theorem createConfigDataValueMap_eq_some {features : List Json} {map map' : ConfigMap} :
    createConfigDataValueMap features map = some map' ↔
      StringMembers (visited features) ∧ map' = insertAll map (storedEntries (visited features)) := by
  induction features generalizing map with
  | nil =>
      simp only [createConfigDataValueMap, Option.some.injEq, visited, List.takeWhile_nil]
      constructor
      · rintro rfl
        exact ⟨fun feature hf => absurd hf List.not_mem_nil, rfl⟩
      · rintro ⟨-, rfl⟩
        rfl
  | cons feature features ih =>
      cases hconfig : feature.getJsonItem configDataStr with
      | none =>
          have hvisited : visited (feature :: features) = [] := by
            simp [visited, hasConfigData, hconfig]
          simp only [createConfigDataValueMap, hconfig, hvisited, Option.some.injEq]
          constructor
          · rintro rfl
            exact ⟨fun feature hf => absurd hf List.not_mem_nil, rfl⟩
          · rintro ⟨-, rfl⟩
            rfl
      | some configData =>
          have hvisited : visited (feature :: features) = feature :: visited features := by
            simp [visited, hasConfigData, hconfig]
          have hmembers : members feature = configData.children := by
            simp [members, hconfig]
          have hstored : storedEntries (feature :: visited features) =
              ((configData.children.filterMap stringMember).map fun e => (normaliseKey e.1, e.2)) ++
                storedEntries (visited features) := by
            simp only [storedEntries, responseEntries, featureEntries, List.flatMap_cons,
              List.map_append, hmembers]
          simp only [createConfigDataValueMap, hconfig, Option.bind_eq_some_iff, hvisited, hstored,
            insertAll_append, insertChildren_eq_some, ih, StringMembers, List.forall_mem_cons,
            hmembers]
          constructor
          · rintro ⟨m, ⟨hchildren, rfl⟩, hrest, rfl⟩
            exact ⟨⟨hchildren, hrest⟩, rfl⟩
          · rintro ⟨⟨hchildren, hrest⟩, rfl⟩
            exact ⟨_, ⟨hchildren, rfl⟩, hrest, rfl⟩

/-- The RDKB loop and the response have the same entries when every feature that gives some passes
the loop's checks. -/
theorem parseConfigValueCalls_eq_iff {features : List Json} :
    parseConfigValueCalls features = responseEntries features ↔
      ∀ feature ∈ features, featureEntries feature ≠ [] → (readFeature feature).isSome := by
  have hcons : ∀ feature fs, parseConfigValueCalls (feature :: fs) =
      (if (readFeature feature).isSome then featureEntries feature else []) ++
        parseConfigValueCalls fs := by
    intro feature fs
    cases hread : readFeature feature with
    | none => simp [parseConfigValueCalls, hread]
    | some obj =>
        cases hconfig : feature.getJsonItem configDataStr with
        | none => simp [parseConfigValueCalls, hread, hconfig, featureEntries, members]
        | some configData =>
            simp [parseConfigValueCalls, hread, hconfig, featureEntries, members]
  have hle : ∀ fs, (parseConfigValueCalls fs).length ≤ (responseEntries fs).length := by
    intro fs
    induction fs with
    | nil => exact Nat.le_refl _
    | cons feature fs ih =>
        rw [hcons, responseEntries, List.flatMap_cons, List.length_append, List.length_append]
        refine Nat.add_le_add ?_ ih
        split
        · exact Nat.le_refl _
        · exact Nat.zero_le _
  induction features with
  | nil => simp [parseConfigValueCalls, responseEntries]
  | cons feature features ih =>
      rw [hcons, responseEntries, List.flatMap_cons, List.forall_mem_cons, ← responseEntries]
      refine Iff.trans ?_ (and_congr_right' ih)
      by_cases haccepted : (readFeature feature).isSome
      · simp [haccepted]
      · simp only [haccepted, Bool.false_eq_true, if_false, List.nil_append, imp_false, not_not]
        constructor
        · intro h
          -- a rejected feature with entries leaves the loop with too few of them
          have hlen := congrArg List.length h
          rw [List.length_append] at hlen
          have hbound := hle features
          have hnil : featureEntries feature = [] := List.length_eq_zero_iff.mp (by omega)
          rw [hnil, List.nil_append] at h
          exact ⟨hnil, h⟩
        · rintro ⟨hnil, h⟩
          rw [hnil, List.nil_append, h]

/-- Reading the features loses nothing: it gets through, every key holds the last string value that
any feature gives for it, and the entries are those of the RDKB loop. -/
def NothingLost (features : List Json) : Prop :=
  (∃ map, createConfigDataValueMap features ∅ = some map ∧
    ∀ key, map[key]? = lastValue (storedEntries features) key) ∧
  parseConfigValueCalls features = responseEntries features

/-- **What is lost, exactly.** A member before the first feature without configData that is not a
named string crashes the reading. A feature behind that point is not read, which is no loss only
where it repeats what its keys already have. The RDKB loop leaves out the features that fail its
checks. -/
theorem nothingLost_iff (features : List Json) :
    NothingLost features ↔
      StringMembers (visited features) ∧
      (∀ key value, lastValue (storedEntries (hidden features)) key = some value →
        lastValue (storedEntries (visited features)) key = some value) ∧
      ∀ feature ∈ features, featureEntries feature ≠ [] → (readFeature feature).isSome := by
  have hlast : ∀ key, lastValue (storedEntries features) key =
      (lastValue (storedEntries (hidden features)) key).or
        (lastValue (storedEntries (visited features)) key) := by
    intro key
    rw [storedEntries_visited_append_hidden, lastValue_append]
  rw [NothingLost, parseConfigValueCalls_eq_iff, ← and_assoc]
  refine and_congr_left fun _ => ?_
  constructor
  · rintro ⟨map, hmap, hlookup⟩
    obtain ⟨hstrings, rfl⟩ := createConfigDataValueMap_eq_some.mp hmap
    refine ⟨hstrings, ?_⟩
    intro key value hvalue
    have hkey := hlookup key
    rw [getElem?_insertAll_empty, hlast, hvalue, Option.some_or] at hkey
    exact hkey
  · rintro ⟨hstrings, hrepeat⟩
    refine ⟨_, createConfigDataValueMap_eq_some.mpr ⟨hstrings, rfl⟩, ?_⟩
    intro key
    rw [getElem?_insertAll_empty, hlast]
    cases hvalue : lastValue (storedEntries (hidden features)) key with
    | none => rw [Option.none_or]
    | some value => rw [Option.some_or, hrepeat key value hvalue]

/-- A feature as the server sends it. -/
def plainFeature (name : Str) (configData : List (Str × Json)) : List (Str × Json) :=
  [("name".toList, .string name), ("enable".toList, .bool true),
    ("effectiveImmediate".toList, .bool true), (configDataStr, .object configData)]

/-- A response body with these features. -/
def responseBody (features : List Json) : Body :=
  some (.object [("featureControl".toList, .object [("features".toList, .array features)])])

theorem features_responseBody (features : List Json) :
    (responseBody features).features = some features := rfl

/-- The first feature carries no configData, the second one does. -/
def gapInTheMiddle : List Json :=
  [.object ((plainFeature "A".toList []).take 3),
    .object (plainFeature "B".toList [("tr181.Device.X".toList, .string "1".toList)])]

theorem not_nothingLost_gapInTheMiddle : ¬ NothingLost gapInTheMiddle := by
  rintro ⟨⟨map, hmap, hlookup⟩, -⟩
  obtain rfl : ∅ = map := Option.some.inj hmap
  have hkey := hlookup "Device.X".toList
  exact absurd hkey (by decide)

end RfcMgr
