import RfcMgr.Json
import RfcMgr.LastInsert

/-! The tool that extracts the lists of a response into files, one for each feature that has a list. The
search for a feature's list starts at the feature itself, and so goes on to the features behind it. -/

namespace RfcMgr.JsonHandler

open LastInsert

/-! ### Paths -/

/-- The file name format, with what stands before and behind its `%s`. -/
structure PathFormat where
  front : Str
  back : Str

/-- `getFilePath`, from the three variables of the environment. -/
def getFilePath (rootPath filenamePrefix filenameSuffix : Option Str) : PathFormat where
  front := rootPath.getD "/opt/secure/RFC".toList ++ ['/'] ++ filenamePrefix.getD ".RFC_LIST_".toList
  back := filenameSuffix.getD ".ini".toList

def PathFormat.print (format : PathFormat) (name : Str) : Str := format.front ++ name ++ format.back

/-- What fits into `char fileName[255]`. -/
def PathFormat.fileName (format : PathFormat) (name : Str) : Str := (format.print name).take 254

/-- What `%s` prints of a `valuestring`, which may be a null pointer. -/
def printed (valuestring : Option Str) : Str := valuestring.getD "(null)".toList

/-! ### The search for an array -/

mutual

/-- One pass of the loop of `getArrayNode`: the node itself, else what is found under it. -/
def nodeArray : Json → Option (List Json)
  | .array items => some items
  | .object members => memberArray members
  | _ => none

/-- `getArrayNode` on the `child` of an object. -/
def memberArray : List (Str × Json) → Option (List Json)
  | [] => none
  | member :: next => (nodeArray member.2).or (memberArray next)

end

/-- `getArrayNode` on a node with its `next` chain: the items of the first array. -/
def getArrayNode : List Json → Option (List Json)
  | [] => none
  | node :: next => (nodeArray node).or (getArrayNode next)

/-! ### Saving -/

/-- A file that was opened for writing, with what was written to it. -/
abbrev SavedFile := Str × Str

/-- The lines of `saveToFile`. -/
def listLines (items : List Str) : Str := items.flatMap fun item => item ++ ['\n']

/-- `saveToFile`: its status and the file it wrote. When the file does not open, the status is what
`snprintf` returned. -/
def saveToFile (fopen : Str → Bool) (arrayNode : List Json) (format : PathFormat) (name : Option Str) :
    Nat × Option SavedFile :=
  let status := (format.print (printed name)).length
  if status = 0 then (0, none)
  else
    let fileName := format.fileName (printed name)
    if fopen fileName then
      (1, some (fileName, listLines (arrayNode.map fun item => printed item.valuestring)))
    else (status, none)

/-- `saveIfNodeContainsLists` on a node, with the nodes that its `next` leads to. -/
def saveIfNodeContainsLists (fopen : Str → Bool) (format : PathFormat) (node : Json)
    (next : List Json) : Nat × Option SavedFile :=
  match node.getJsonItem "listType".toList with
  | none => (0, none)
  | some _ =>
      match node.getJsonItem "name".toList with
      | none => (0, none)
      | some name =>
          match getArrayNode (node :: next) with
          | none => (0, none)
          | some arrayNode => saveToFile fopen arrayNode format name.valuestring

abbrev Files := Str → Option Str

def Files.save (files : Files) : Option SavedFile → Files
  | none => files
  | some saved => Function.update files saved.1 (some saved.2)

/-- The loop over the features. -/
def saveNodes (fopen : Str → Bool) (format : PathFormat) : List Json → Nat × Files → Nat × Files
  | [], acc => acc
  | node :: next, (count, files) =>
      let (result, saved) := saveIfNodeContainsLists fopen format node next
      saveNodes fopen format next (if result = 1 then count + 1 else count, files.save saved)

/-- `iterateAndSaveArrayNodes`: the count it returns and the files it leaves. -/
def iterateAndSaveArrayNodes (fopen : Str → Bool) (absolutePath : PathFormat) (jsonData : Body)
    (files : Files) : Nat × Files :=
  match jsonData.bind fun root =>
      (root.getJsonItem "featureControl".toList).bind (·.getJsonItem "features".toList) with
  | none => (0, files)
  | some head => saveNodes fopen absolutePath (head.children.map (·.2)) (0, files)

/-! ### What each feature is to save -/

mutual

/-- An item and all that is in it, in the order of the text. -/
def preorder : Json → List Json
  | .array items => .array items :: preorderItems items
  | .object members => .object members :: preorderMembers members
  | item => [item]

def preorderItems : List Json → List Json
  | [] => []
  | item :: items => preorder item ++ preorderItems items

def preorderMembers : List (Str × Json) → List Json
  | [] => []
  | member :: members => preorder member.2 ++ preorderMembers members

end

def descendants (node : Json) : List Json := (preorder node).tail

/-- The items of the first array of a feature's own. -/
def ownArray (feature : Json) : Option (List Json) := (descendants feature).findSome? Json.arrayItems

/-- The `name` of a feature that has a `listType`; the inner option is that of a name that is no string. -/
def listName (feature : Json) : Option (Option Str) :=
  if (feature.getJsonItem "listType".toList).isSome then
    (feature.getJsonItem "name".toList).map Json.valuestring
  else none

/-- The file of a feature with a `listType`, a string for a name and an array of its own. -/
def ownSave (format : PathFormat) (feature : Json) : Option SavedFile :=
  (listName feature).join.bind fun name =>
    (ownArray feature).map fun items => (format.fileName name, listLines (items.filterMap Json.valuestring))

/-- The items of a feature's list are strings. -/
def StringItems (feature : Json) : Prop :=
  ∀ items, ownArray feature = some items → ∀ item ∈ items, item.valuestring.isSome

/-- Each feature is saved to the file that is its own, and the others save nothing. -/
structure KeepsApart (fopen : Str → Bool) (format : PathFormat) (root : Json) (files : Files)
    (features : List Json) : Prop where
  saves : ∀ earlier feature later, features = earlier ++ feature :: later →
    (saveIfNodeContainsLists fopen format feature later).2 = ownSave format feature
  contents : ∀ feature ∈ features, ∀ file text, ownSave format feature = some (file, text) →
    (iterateAndSaveArrayNodes fopen format (some root) files).2 file = some text
  others : ∀ file, (∀ feature ∈ features, ∀ text, ownSave format feature ≠ some (file, text)) →
    (iterateAndSaveArrayNodes fopen format (some root) files).2 file = files file
  count : (iterateAndSaveArrayNodes fopen format (some root) files).1 =
    features.countP fun feature => (ownSave format feature).isSome

/-- The file of a name can be written. -/
def Opens (fopen : Str → Bool) (format : PathFormat) (name : Option Str) : Prop :=
  format.print (printed name) ≠ [] ∧ fopen (format.fileName (printed name)) = true

instance (fopen : Str → Bool) (format : PathFormat) (name : Option Str) :
    Decidable (Opens fopen format name) :=
  inferInstanceAs (Decidable (_ ∧ _))

/-- An attempt at the file of a name is neither written nor counted. A file name of one character that does
not open is counted. -/
def Refused (fopen : Str → Bool) (format : PathFormat) (name : Option Str) : Prop :=
  ¬ Opens fopen format name ∧ (format.print (printed name)).length ≠ 1

/-- When the features stay apart. -/
structure Separate (fopen : Str → Bool) (format : PathFormat) (features : List Json) : Prop where
  /-- The files of the lists can be written. -/
  opens : ∀ feature ∈ features, ∀ name, listName feature = some (some name) → (ownArray feature).isSome →
    Opens fopen format (some name)
  /-- A feature without a list of its own, or without a string for a name, has no array from itself on. -/
  alone : ∀ earlier feature later, features = earlier ++ feature :: later →
    ∀ name, listName feature = some name → name = none ∨ ownArray feature = none →
      (∀ other ∈ feature :: later, ∀ node ∈ preorder other, node.arrayItems = none) ∨
        Refused fopen format name
  /-- Lists that go to one file are the same. -/
  distinct : ∀ feature ∈ features, ∀ other ∈ features, ∀ file text text',
    ownSave format feature = some (file, text) → ownSave format other = some (file, text') → text = text'

/-! ### The search, in the order of the text -/

mutual

theorem nodeArray_eq (node : Json) : nodeArray node = (preorder node).findSome? Json.arrayItems := by
  cases node with
  | null => rfl
  | bool value => rfl
  | number text => rfl
  | string value => rfl
  | array items => rfl
  | object members =>
      rw [nodeArray, preorder, memberArray_eq members, List.findSome?_cons]
      rfl

theorem memberArray_eq (members : List (Str × Json)) :
    memberArray members = (preorderMembers members).findSome? Json.arrayItems := by
  cases members with
  | nil => rfl
  | cons member members =>
      rw [memberArray, preorderMembers, List.findSome?_append, nodeArray_eq member.2,
        memberArray_eq members]

end

theorem getArrayNode_eq (nodes : List Json) :
    getArrayNode nodes = (nodes.flatMap preorder).findSome? Json.arrayItems := by
  induction nodes with
  | nil => rfl
  | cons node next ih =>
      rw [getArrayNode, nodeArray_eq, ih, List.flatMap_cons, List.findSome?_append]

/-- The search finds nothing only when no node has an array anywhere in it. -/
theorem getArrayNode_eq_none_iff {nodes : List Json} :
    getArrayNode nodes = none ↔ ∀ other ∈ nodes, ∀ node ∈ preorder other, node.arrayItems = none := by
  rw [getArrayNode_eq, List.findSome?_eq_none_iff]
  simp only [List.mem_flatMap]
  constructor
  · intro h other hother node hnode
    exact h node ⟨other, hother, hnode⟩
  · rintro h node ⟨other, hother, hnode⟩
    exact h other hother node hnode

theorem preorder_eq (node : Json) : preorder node = node :: descendants node := by
  cases node with
  | null => rfl
  | bool value => rfl
  | number text => rfl
  | string value => rfl
  | array items => rfl
  | object members => rfl

/-- Only an object has a `listType`. -/
theorem arrayItems_of_listName {feature : Json} {name : Option Str} (h : listName feature = some name) :
    feature.arrayItems = none := by
  cases feature with
  | array items =>
      have hmember : (Json.array items).getJsonItem "listType".toList = none := by
        rw [Json.getJsonItem, Json.children, List.find?_map]
        simp [Function.comp_def]
      rw [listName, hmember] at h
      cases h
  | null => rfl
  | bool value => rfl
  | number text => rfl
  | string value => rfl
  | object members => rfl

/-- The search from a feature on finds the feature's own first array, if it has one. -/
theorem getArrayNode_feature {feature : Json} {name : Option Str} (h : listName feature = some name)
    (later : List Json) : getArrayNode (feature :: later) = (ownArray feature).or (getArrayNode later) := by
  rw [getArrayNode, nodeArray_eq, preorder_eq, List.findSome?_cons, arrayItems_of_listName h]
  rfl

/-! ### One feature -/

theorem saveIfNodeContainsLists_eq (fopen : Str → Bool) (format : PathFormat) (feature : Json)
    (later : List Json) :
    saveIfNodeContainsLists fopen format feature later =
      match listName feature, getArrayNode (feature :: later) with
      | some name, some items => saveToFile fopen items format name
      | _, _ => (0, none) := by
  rw [saveIfNodeContainsLists, listName]
  cases feature.getJsonItem "listType".toList with
  | none => rfl
  | some listType =>
      rw [Option.isSome_some, if_pos rfl]
      cases feature.getJsonItem "name".toList with
      | none => rfl
      | some name =>
          cases getArrayNode (feature :: later) with
          | none => rfl
          | some items => rfl

/-- A file is written when it opens. -/
theorem saveToFile_saved (fopen : Str → Bool) (items : List Json) (format : PathFormat)
    (name : Option Str) :
    (saveToFile fopen items format name).2 =
      if Opens fopen format name then
        some (format.fileName (printed name), listLines (items.map fun item => printed item.valuestring))
      else none := by
  rw [saveToFile]
  by_cases hempty : format.print (printed name) = []
  · rw [if_pos (by rw [hempty]; rfl), if_neg fun h => h.1 hempty]
  · rw [if_neg fun h => hempty (List.length_eq_zero_iff.mp h)]
    by_cases hopens : fopen (format.fileName (printed name)) = true
    · rw [if_pos hopens, if_pos ⟨hempty, hopens⟩]
    · rw [if_neg hopens, if_neg fun h => hopens h.2]

/-- What is counted. -/
theorem saveToFile_status (fopen : Str → Bool) (items : List Json) (format : PathFormat)
    (name : Option Str) :
    (saveToFile fopen items format name).1 = 1 ↔
      Opens fopen format name ∨ (format.print (printed name)).length = 1 := by
  rw [saveToFile, Opens]
  by_cases hempty : format.print (printed name) = []
  · simp [hempty]
  · by_cases hopens : fopen (format.fileName (printed name)) = true
    · simp [hempty, hopens]
    · simp [hempty, hopens]

theorem ownSave_of_listName {format : PathFormat} {feature : Json} {name : Str} {items : List Json}
    (hname : listName feature = some (some name)) (hown : ownArray feature = some items) :
    ownSave format feature =
      some (format.fileName name, listLines (items.filterMap Json.valuestring)) := by
  rw [ownSave, hname, hown]
  rfl

theorem ownSave_eq_some_iff {format : PathFormat} {feature : Json} {saved : SavedFile} :
    ownSave format feature = some saved ↔
      ∃ name items, listName feature = some (some name) ∧ ownArray feature = some items ∧
        (format.fileName name, listLines (items.filterMap Json.valuestring)) = saved := by
  rw [ownSave]
  simp only [Option.bind_eq_some_iff, Option.join_eq_some_iff, Option.map_eq_some_iff]
  constructor
  · rintro ⟨name, hname, items, hown, hsaved⟩
    exact ⟨name, items, hname, hown, hsaved⟩
  · rintro ⟨name, items, hname, hown, hsaved⟩
    exact ⟨name, hname, items, hown, hsaved⟩

/-- The printed strings of a list are its strings. -/
theorem map_printed {items : List Json} (h : ∀ item ∈ items, item.valuestring.isSome) :
    items.map (fun item => printed item.valuestring) = items.filterMap Json.valuestring := by
  induction items with
  | nil => rfl
  | cons item items ih =>
      obtain ⟨value, hvalue⟩ := Option.isSome_iff_exists.mp (h item List.mem_cons_self)
      rw [List.map_cons, List.filterMap_cons, hvalue, ih fun other hother => h other (by simp [hother])]
      rfl

theorem ownSave_of_bare {format : PathFormat} {feature : Json} {name : Option Str}
    (hname : listName feature = some name) (hbare : name = none ∨ ownArray feature = none) :
    ownSave format feature = none := by
  rw [Option.eq_none_iff_forall_ne_some]
  intro saved hsaved
  obtain ⟨text, items, hname', hown, -⟩ := ownSave_eq_some_iff.mp hsaved
  obtain rfl : name = some text := Option.some.inj (hname.symm.trans hname')
  rcases hbare with hnone | hnone
  · cases hnone
  · rw [hown] at hnone
    cases hnone

section Call

variable (fopen : Str → Bool) (format : PathFormat) {feature : Json}

/-- A feature with a list of its own is saved as it is to be when its file opens. -/
theorem call_list_iff (later : List Json) {name : Str} {items : List Json}
    (hname : listName feature = some (some name)) (hown : ownArray feature = some items)
    (hitems : StringItems feature) :
    ((saveIfNodeContainsLists fopen format feature later).2 = ownSave format feature ∧
        ((saveIfNodeContainsLists fopen format feature later).1 = 1 →
          (ownSave format feature).isSome)) ↔
      Opens fopen format (some name) := by
  have hcall : saveIfNodeContainsLists fopen format feature later =
      saveToFile fopen items format (some name) := by
    rw [saveIfNodeContainsLists_eq, getArrayNode_feature hname, hname, hown]
    rfl
  rw [hcall, ownSave_of_listName hname hown, saveToFile_saved, map_printed (hitems items hown)]
  split
  next hopens => simp [printed, hopens]
  next hopens => simp [hopens]

/-- A feature without one saves nothing when the search finds nothing or its file is refused. -/
theorem call_bare_iff (later : List Json) {name : Option Str} (hname : listName feature = some name)
    (hbare : name = none ∨ ownArray feature = none) :
    ((saveIfNodeContainsLists fopen format feature later).2 = ownSave format feature ∧
        ((saveIfNodeContainsLists fopen format feature later).1 = 1 →
          (ownSave format feature).isSome)) ↔
      getArrayNode (feature :: later) = none ∨ Refused fopen format name := by
  rw [ownSave_of_bare hname hbare, saveIfNodeContainsLists_eq, hname]
  cases hsearch : getArrayNode (feature :: later) with
  | none =>
      show (none = none ∧ (0 = 1 → _)) ↔ _
      exact ⟨fun _ => Or.inl rfl, fun _ => ⟨rfl, fun h => by omega⟩⟩
  | some items =>
      show (saveToFile fopen items format name).2 = none ∧
        ((saveToFile fopen items format name).1 = 1 → _) ↔ _
      have hclosed : (saveToFile fopen items format name).2 = none ↔ ¬ Opens fopen format name := by
        rw [saveToFile_saved]
        split
        next hopens => simp [hopens]
        next hopens => simp [hopens]
      rw [hclosed, saveToFile_status, Refused]
      simp only [reduceCtorEq, false_or, Option.isSome_none, Bool.false_eq_true, imp_false, not_or]
      exact ⟨fun h => h.2, fun h => ⟨h.1, h⟩⟩

/-- When a feature is saved to its own file or not at all, and counted only when it is to be saved. -/
theorem call_iff (later : List Json) (hitems : StringItems feature) :
    ((saveIfNodeContainsLists fopen format feature later).2 = ownSave format feature ∧
        ((saveIfNodeContainsLists fopen format feature later).1 = 1 →
          (ownSave format feature).isSome)) ↔
      (∀ name, listName feature = some (some name) → (ownArray feature).isSome →
        Opens fopen format (some name)) ∧
      ∀ name, listName feature = some name → name = none ∨ ownArray feature = none →
        getArrayNode (feature :: later) = none ∨ Refused fopen format name := by
  cases hname : listName feature with
  | none =>
      rw [saveIfNodeContainsLists_eq, hname]
      simp [ownSave, hname]
  | some name =>
      by_cases hbare : name = none ∨ ownArray feature = none
      · rw [call_bare_iff fopen format later hname hbare]
        constructor
        · intro h
          refine ⟨fun text htext hown => ?_, fun other hother _ => ?_⟩
          · obtain rfl := Option.some.inj htext
            rcases hbare with hnone | hnone
            · cases hnone
            · rw [hnone] at hown
              cases hown
          · obtain rfl := Option.some.inj hother
            exact h
        · rintro ⟨-, halone⟩
          exact halone name rfl hbare
      · obtain ⟨hsome, hlist⟩ := not_or.mp hbare
        obtain ⟨text, rfl⟩ := Option.ne_none_iff_exists'.mp hsome
        obtain ⟨items, hown⟩ := Option.ne_none_iff_exists'.mp hlist
        rw [call_list_iff fopen format later hname hown hitems]
        constructor
        · intro hopens
          refine ⟨fun other hother _ => ?_, fun other hother hnone => ?_⟩
          · rwa [← Option.some.inj hother]
          · obtain rfl := Option.some.inj hother
            exact absurd hnone hbare
        · rintro ⟨hopens, -⟩
          exact hopens text rfl (Option.isSome_iff_exists.mpr ⟨items, hown⟩)

end Call

/-! ### The loop -/

/-- What the calls of the loop return. -/
def calls (fopen : Str → Bool) (format : PathFormat) : List Json → List (Nat × Option SavedFile)
  | [] => []
  | node :: next => saveIfNodeContainsLists fopen format node next :: calls fopen format next

theorem saveNodes_eq (fopen : Str → Bool) (format : PathFormat) (nodes : List Json) (count : Nat)
    (files : Files) :
    saveNodes fopen format nodes (count, files) =
      (count + (calls fopen format nodes).countP (·.1 = 1),
        (calls fopen format nodes).foldl (fun files call => files.save call.2) files) := by
  induction nodes generalizing count files with
  | nil => rfl
  | cons node next ih =>
      show saveNodes fopen format next
        (if (saveIfNodeContainsLists fopen format node next).1 = 1 then count + 1 else count,
          files.save (saveIfNodeContainsLists fopen format node next).2) = _
      rw [ih, calls, List.countP_cons, List.foldl_cons, Prod.mk.injEq]
      refine ⟨?_, rfl⟩
      by_cases hresult : (saveIfNodeContainsLists fopen format node next).1 = 1
      · simp only [hresult, if_true, decide_true]
        omega
      · simp only [hresult, if_false, decide_false, Bool.false_eq_true]
        omega

theorem iterateAndSaveArrayNodes_eq {root : Json} {features : List Json}
    (hfeatures : getRuntimeFeatureControlJSON root = some features) (fopen : Str → Bool)
    (format : PathFormat) (files : Files) :
    iterateAndSaveArrayNodes fopen format (some root) files =
      saveNodes fopen format features (0, files) := by
  rw [getRuntimeFeatureControlJSON] at hfeatures
  obtain ⟨control, hcontrol, hmember⟩ := Option.bind_eq_some_iff.mp hfeatures
  obtain ⟨head, hhead, hitems⟩ := Option.bind_eq_some_iff.mp hmember
  cases head with
  | array items =>
      obtain rfl := Option.some.inj hitems
      rw [iterateAndSaveArrayNodes, Option.bind_some, hcontrol, Option.bind_some, hhead]
      simp [Json.children, Function.comp_def]
  | null => cases hitems
  | bool value => cases hitems
  | number text => cases hitems
  | string value => cases hitems
  | object members => cases hitems

/-- What holds of each item and those behind it holds of the first, and of the items of the rest. -/
theorem forall_split_cons_iff {α : Type*} {P : α → List α → Prop} {a : α} {l : List α} :
    (∀ earlier x later, a :: l = earlier ++ x :: later → P x later) ↔
      P a l ∧ ∀ earlier x later, l = earlier ++ x :: later → P x later := by
  constructor
  · intro h
    refine ⟨h [] a l rfl, fun earlier x later hl => h (a :: earlier) x later ?_⟩
    rw [hl, List.cons_append]
  · rintro ⟨hfirst, hrest⟩ earlier x later heq
    cases earlier with
    | nil =>
        obtain ⟨rfl, rfl⟩ := List.cons.inj heq
        exact hfirst
    | cons first earlier =>
        exact hrest earlier x later (List.cons.inj heq).2

/-- Two counts are equal when whatever the larger one counts, the smaller one does. -/
theorem countP_eq_countP_iff {α : Type*} {p q : α → Bool} {l : List α}
    (h : ∀ a ∈ l, p a = true → q a = true) :
    l.countP q = l.countP p ↔ ∀ a ∈ l, q a = true → p a = true := by
  induction l with
  | nil => simp
  | cons a l ih =>
      have hrest : ∀ b ∈ l, p b = true → q b = true := fun b hb => h b (List.mem_cons_of_mem a hb)
      have hle : l.countP p ≤ l.countP q := List.countP_mono_left hrest
      rw [List.forall_mem_cons, ← ih hrest, List.countP_cons, List.countP_cons]
      cases hq : q a with
      | false =>
          have hp : p a = false := by
            by_contra hp
            rw [h a List.mem_cons_self (by simpa using hp)] at hq
            cases hq
          simp [hp]
      | true =>
          cases hp : p a with
          | true => simp
          | false =>
              simp
              omega

theorem forall_mem_calls_iff {fopen : Str → Bool} {format : PathFormat}
    {P : Nat × Option SavedFile → Prop} {nodes : List Json} :
    (∀ call ∈ calls fopen format nodes, P call) ↔
      ∀ earlier feature later, nodes = earlier ++ feature :: later →
        P (saveIfNodeContainsLists fopen format feature later) := by
  induction nodes with
  | nil => simp [calls]
  | cons node next ih =>
      rw [forall_split_cons_iff, calls, List.forall_mem_cons, ih]

/-- Every feature is saved as it is to be when the calls save the files of the features. -/
theorem calls_saved_iff {fopen : Str → Bool} {format : PathFormat} {nodes : List Json} :
    (calls fopen format nodes).map (·.2) = nodes.map (ownSave format) ↔
      ∀ earlier feature later, nodes = earlier ++ feature :: later →
        (saveIfNodeContainsLists fopen format feature later).2 = ownSave format feature := by
  induction nodes with
  | nil => simp [calls]
  | cons node next ih =>
      rw [forall_split_cons_iff, calls, List.map_cons, List.map_cons, List.cons.injEq, ih]

/-- What is saved is counted. -/
theorem counted_of_saved {fopen : Str → Bool} {format : PathFormat} {feature : Json} {later : List Json}
    (h : (saveIfNodeContainsLists fopen format feature later).2.isSome) :
    (saveIfNodeContainsLists fopen format feature later).1 = 1 := by
  rw [saveIfNodeContainsLists_eq] at h ⊢
  cases hname : listName feature with
  | none =>
      rw [hname] at h
      cases h
  | some name =>
      cases hsearch : getArrayNode (feature :: later) with
      | none =>
          rw [hname, hsearch] at h
          cases h
      | some items =>
          rw [hname, hsearch] at h
          show (saveToFile fopen items format name).1 = 1
          replace h : (saveToFile fopen items format name).2.isSome := h
          rw [saveToFile_saved] at h
          by_cases hopens : Opens fopen format name
          · exact (saveToFile_status fopen items format name).mpr (Or.inl hopens)
          · rw [if_neg hopens] at h
            cases h

/-- When the calls save what the features are to save, the count is right if nothing else is counted. -/
theorem count_iff {fopen : Str → Bool} {format : PathFormat} {nodes : List Json}
    (h : (calls fopen format nodes).map (·.2) = nodes.map (ownSave format)) :
    ((calls fopen format nodes).countP (·.1 = 1) = nodes.countP fun node => (ownSave format node).isSome) ↔
      ∀ call ∈ calls fopen format nodes, call.1 = 1 → call.2.isSome := by
  have hown : (nodes.countP fun node => (ownSave format node).isSome) =
      (calls fopen format nodes).countP fun call => call.2.isSome := by
    calc (nodes.countP fun node => (ownSave format node).isSome)
        = (nodes.map (ownSave format)).countP Option.isSome := by rw [List.countP_map]; rfl
      _ = ((calls fopen format nodes).map (·.2)).countP Option.isSome := by rw [h]
      _ = _ := by rw [List.countP_map]; rfl
  have hsaved : ∀ call ∈ calls fopen format nodes, call.2.isSome = true → decide (call.1 = 1) = true := by
    rw [forall_mem_calls_iff]
    intro earlier feature later _ hsome
    exact decide_eq_true (counted_of_saved hsome)
  rw [hown, countP_eq_countP_iff hsaved]
  simp only [decide_eq_true_eq]

/-- The files when the calls save what the features are to save. -/
theorem files_eq {fopen : Str → Bool} {format : PathFormat} {nodes : List Json}
    (h : (calls fopen format nodes).map (·.2) = nodes.map (ownSave format)) (files : Files) :
    (calls fopen format nodes).foldl (fun files call => files.save call.2) files =
      updateAll files (nodes.filterMap (ownSave format)) := by
  have hwrites : nodes.filterMap (ownSave format) = (calls fopen format nodes).filterMap (·.2) := by
    calc nodes.filterMap (ownSave format)
        = (nodes.map (ownSave format)).filterMap id := by rw [List.filterMap_map]; rfl
      _ = ((calls fopen format nodes).map (·.2)).filterMap id := by rw [h]
      _ = _ := by rw [List.filterMap_map]; rfl
  rw [hwrites, updateAll, List.foldl_filterMap]
  congr 1
  funext files call
  cases call.2 with
  | none => rfl
  | some saved => rfl

theorem contents_iff {format : PathFormat} {features : List Json} (files : Files) :
    (∀ feature ∈ features, ∀ file text, ownSave format feature = some (file, text) →
        updateAll files (features.filterMap (ownSave format)) file = some text) ↔
      ∀ feature ∈ features, ∀ other ∈ features, ∀ file text text',
        ownSave format feature = some (file, text) → ownSave format other = some (file, text') →
          text = text' := by
  have hall := forall_updateAll_iff files (features.filterMap (ownSave format))
  simp only [List.mem_filterMap] at hall
  constructor
  · intro h feature hfeature other hother file text text' hsave hsave'
    exact hall.mp (fun saved ⟨node, hnode, hsaved⟩ => h node hnode saved.1 saved.2 hsaved)
      (file, text) ⟨feature, hfeature, hsave⟩ (file, text') ⟨other, hother, hsave'⟩ rfl
  · intro h feature hfeature file text hsave
    refine hall.mpr ?_ (file, text) ⟨feature, hfeature, hsave⟩
    rintro ⟨file, text⟩ ⟨node, hnode, hsave⟩ ⟨file', text'⟩ ⟨node', hnode', hsave'⟩ hfile
    obtain rfl : file = file' := hfile
    exact h node hnode node' hnode' file text text' hsave hsave'

/-- The features are kept apart when every call saves and counts as it is to, and no list is written over
by another. -/
theorem keepsApart_calls_iff {root : Json} {features : List Json}
    (hfeatures : getRuntimeFeatureControlJSON root = some features) (fopen : Str → Bool)
    (format : PathFormat) (files : Files) :
    KeepsApart fopen format root files features ↔
      (∀ earlier feature later, features = earlier ++ feature :: later →
        (saveIfNodeContainsLists fopen format feature later).2 = ownSave format feature ∧
          ((saveIfNodeContainsLists fopen format feature later).1 = 1 →
            (ownSave format feature).isSome)) ∧
      ∀ feature ∈ features, ∀ other ∈ features, ∀ file text text',
        ownSave format feature = some (file, text) → ownSave format other = some (file, text') →
          text = text' := by
  have hrun := (iterateAndSaveArrayNodes_eq hfeatures fopen format files).trans
    (saveNodes_eq fopen format features 0 files)
  rw [Nat.zero_add] at hrun
  constructor
  · intro h
    have hsaved := calls_saved_iff.mpr h.saves
    have hcount := h.count
    have hcontents := h.contents
    rw [hrun] at hcount
    rw [hrun, files_eq hsaved] at hcontents
    have hcounted := forall_mem_calls_iff.mp ((count_iff hsaved).mp hcount)
    refine ⟨fun earlier feature later hsplit => ?_, (contents_iff files).mp hcontents⟩
    have hsave := h.saves earlier feature later hsplit
    refine ⟨hsave, fun hone => ?_⟩
    rw [← hsave]
    exact hcounted earlier feature later hsplit hone
  · rintro ⟨hcalls, hdistinct⟩
    have hsaves := fun earlier feature later hsplit => (hcalls earlier feature later hsplit).1
    have hsaved := calls_saved_iff.mpr hsaves
    have hcounted : ∀ call ∈ calls fopen format features, call.1 = 1 → call.2.isSome := by
      rw [forall_mem_calls_iff]
      intro earlier feature later hsplit hone
      rw [hsaves earlier feature later hsplit]
      exact (hcalls earlier feature later hsplit).2 hone
    refine ⟨hsaves, ?_, ?_, ?_⟩
    · rw [hrun, files_eq hsaved]
      exact (contents_iff files).mpr hdistinct
    · intro file hfile
      rw [hrun, files_eq hsaved]
      refine updateAll_of_not_mem fun text hmem => ?_
      obtain ⟨feature, hfeature, hsave⟩ := List.mem_filterMap.mp hmem
      exact hfile feature hfeature text hsave
    · rw [hrun]
      exact (count_iff hsaved).mpr hcounted

/-- The features of a response are kept apart exactly when they are separate. -/
theorem keepsApart_iff {root : Json} {features : List Json}
    (hfeatures : getRuntimeFeatureControlJSON root = some features)
    (hitems : ∀ feature ∈ features, StringItems feature) (fopen : Str → Bool) (format : PathFormat)
    (files : Files) :
    KeepsApart fopen format root files features ↔ Separate fopen format features := by
  have hcall := fun earlier feature later (hsplit : features = earlier ++ feature :: later) =>
    call_iff fopen format later (hitems feature (by simp [hsplit]))
  rw [keepsApart_calls_iff hfeatures]
  constructor
  · rintro ⟨hcalls, hdistinct⟩
    refine ⟨?_, ?_, hdistinct⟩
    · intro feature hfeature
      obtain ⟨earlier, later, hsplit⟩ := List.append_of_mem hfeature
      exact ((hcall earlier feature later hsplit).mp (hcalls earlier feature later hsplit)).1
    · intro earlier feature later hsplit name hname hother
      rw [← getArrayNode_eq_none_iff]
      exact ((hcall earlier feature later hsplit).mp (hcalls earlier feature later hsplit)).2 name hname
        hother
  · intro h
    refine ⟨fun earlier feature later hsplit => (hcall earlier feature later hsplit).mpr ⟨?_, ?_⟩,
      h.distinct⟩
    · exact h.opens feature (by simp [hsplit])
    · intro name hname hother
      rw [getArrayNode_eq_none_iff]
      exact h.alone earlier feature later hsplit name hname hother

/-- A feature with a list. -/
def listFeature : Json := .object [("name".toList, .string ['B']), ("listType".toList, .string ['T']),
  (['L'], .array [.string ['1'], .string ['2']])]

/-- A feature with a `listType` and no list. -/
def bareFeature : Json := .object [("name".toList, .string ['A']), ("listType".toList, .string ['T'])]

def responseOf (features : List Json) : Json :=
  .object [("featureControl".toList, .object [("features".toList, .array features)])]

theorem getRuntimeFeatureControlJSON_responseOf (features : List Json) :
    getRuntimeFeatureControlJSON (responseOf features) = some features := by
  simp [getRuntimeFeatureControlJSON, responseOf, Json.getJsonItem, Json.children, stringCaseCompare,
    Json.arrayItems]

theorem listName_listFeature : listName listFeature = some (some ['B']) := by decide

theorem listName_bareFeature : listName bareFeature = some (some ['A']) := by decide

theorem ownArray_listFeature : ownArray listFeature = some [.string ['1'], .string ['2']] := rfl

theorem ownArray_bareFeature : ownArray bareFeature = none := rfl

theorem ownSave_bareFeature (format : PathFormat) : ownSave format bareFeature = none :=
  ownSave_of_bare listName_bareFeature (Or.inr ownArray_bareFeature)

theorem stringItems_of_mem {features : List Json}
    (h : ∀ feature ∈ features, feature = listFeature ∨ feature = bareFeature) :
    ∀ feature ∈ features, StringItems feature := by
  intro feature hfeature items hitems
  rcases h feature hfeature with rfl | rfl
  · obtain rfl := Option.some.inj (ownArray_listFeature.symm.trans hitems)
    simp [Json.valuestring]
  · rw [ownArray_bareFeature] at hitems
    cases hitems

theorem opens_all (name : Option Str) : Opens (fun _ => true) (getFilePath none none none) name :=
  ⟨by simp [PathFormat.print, getFilePath], rfl⟩

theorem keepsApart_listFirst :
    KeepsApart (fun _ => true) (getFilePath none none none) (responseOf [listFeature, bareFeature])
      (fun _ => none) [listFeature, bareFeature] := by
  refine (keepsApart_iff (getRuntimeFeatureControlJSON_responseOf _) (stringItems_of_mem (by simp))
    (fun _ => true) (getFilePath none none none) (fun _ => none)).mpr ⟨?_, ?_, ?_⟩
  · intro feature _ name _ _
    exact opens_all (some name)
  · refine forall_split_cons_iff.mpr ⟨?_, forall_split_cons_iff.mpr ⟨?_, by simp⟩⟩
    · intro name hname hother
      rw [listName_listFeature] at hname
      obtain rfl := Option.some.inj hname
      rw [ownArray_listFeature] at hother
      simp at hother
    · intro name _ _
      refine Or.inl fun other hother => ?_
      obtain rfl := List.mem_singleton.mp hother
      show ∀ node ∈ [bareFeature, .string ['A'], .string ['T']], node.arrayItems = none
      simp [bareFeature, Json.arrayItems]
  · intro feature hfeature other hother file text text' hsave hsave'
    have hlist : ∀ node ∈ [listFeature, bareFeature], ∀ saved,
        ownSave (getFilePath none none none) node = some saved → node = listFeature := by
      intro node hnode saved hsaved
      rcases List.mem_cons.mp hnode with rfl | hnode
      · rfl
      · obtain rfl := List.mem_singleton.mp hnode
        rw [ownSave_bareFeature] at hsaved
        cases hsaved
    obtain rfl := hlist feature hfeature _ hsave
    obtain rfl := hlist other hother _ hsave'
    exact congrArg Prod.snd (Option.some.inj (hsave.symm.trans hsave'))

/-- The list of the second feature ends up in the file of the first, which has none. -/
theorem not_keepsApart :
    ¬ ∀ (fopen : Str → Bool) (format : PathFormat) (root : Json) (files : Files) (features : List Json),
      getRuntimeFeatureControlJSON root = some features → (∀ feature ∈ features, StringItems feature) →
        KeepsApart fopen format root files features := by
  intro h
  have hapart := h (fun _ => true) (getFilePath none none none) (responseOf [bareFeature, listFeature])
    (fun _ => none) [bareFeature, listFeature] (getRuntimeFeatureControlJSON_responseOf _)
    (stringItems_of_mem (by simp))
  have hsave := hapart.saves [] bareFeature [listFeature] rfl
  have hsearch : getArrayNode [bareFeature, listFeature] = some [.string ['1'], .string ['2']] := rfl
  rw [saveIfNodeContainsLists_eq, listName_bareFeature, hsearch, ownSave_bareFeature] at hsave
  replace hsave : (saveToFile _ _ _ _).2 = none := hsave
  rw [saveToFile_saved, if_pos (opens_all _)] at hsave
  cases hsave

end RfcMgr.JsonHandler
