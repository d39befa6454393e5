import RfcMgr.Forest
import RfcMgr.ListFiles

/-! `getArrayNode` of jsonhandler.cpp on the items of cJSON as they lie in memory, each with its type and
the pointers to its first child and to its next sibling. -/

namespace RfcMgr.CJson

open Forest

/-- `cJSON`, as far as the search looks at it; the label is the `type`. -/
abbrev Item (Addr : Type*) := Cell Addr (BitVec 32)

abbrev Heap (Addr : Type*) := Memory Addr (BitVec 32)

section Search

variable {Addr : Type*} (cJSONArray : BitVec 32)

/-- The bits above the type are flags. -/
def isNodeArrayType (item : Item Addr) : Bool := item.label &&& 0xFF#32 == cJSONArray

/-- The loop over a node and its later siblings, each pass of which may go into the children. The result
is the node that is found, and `none` when there is none; without one, the fuel ran out or the heap was
read where nothing is stored. -/
def getArrayNode (heap : Heap Addr) : Nat → Option Addr → Option (Option Addr)
  | 0, _ => none
  | _ + 1, none => some none
  | fuel + 1, some node =>
      (heap node).bind fun item =>
        if isNodeArrayType cJSONArray item then some (some node)
        else if item.child.isSome then
          (getArrayNode heap fuel item.child).bind fun childNode =>
            if childNode.isSome then some childNode else getArrayNode heap fuel item.next
        else getArrayNode heap fuel item.next

/-- The node is an array. -/
def isArray (heap : Heap Addr) (node : Addr) : Bool := (heap node).any (isNodeArrayType cJSONArray)

/-- As many passes as there are nodes are enough, and one for the null pointer at the end. -/
theorem getArrayNode_of_holds {heap : Heap Addr} {node : Option Addr} {forest : List (RoseTree Addr)}
    (h : Holds heap node forest) {fuel : Nat} (hfuel : (preorder forest).length < fuel) :
    getArrayNode cJSONArray heap fuel node =
      some ((preorder forest).find? (isArray cJSONArray heap)) := by
  induction h generalizing fuel with
  | null =>
      cases fuel with
      | zero => omega
      | succ fuel => rfl
  | @node address cell children later hcell hchild _ ihchild ihnext =>
      cases fuel with
      | zero => omega
      | succ fuel =>
          rw [preorder_node, List.length_cons, List.length_append] at hfuel
          have hbelow := ihchild (show (preorder children).length < fuel by omega)
          have hbehind := ihnext (show (preorder later).length < fuel by omega)
          have harray : isArray cJSONArray heap address = isNodeArrayType cJSONArray cell := by
            rw [isArray, hcell, Option.any_some]
          rw [getArrayNode, hcell, Option.bind_some, preorder_node, List.find?_cons, harray]
          cases isNodeArrayType cJSONArray cell with
          | true => rfl
          | false =>
              rw [if_neg Bool.false_ne_true, List.find?_append]
              by_cases hsome : cell.child.isSome = true
              · rw [if_pos hsome, hbelow, Option.bind_some, hbehind]
                cases (preorder children).find? (isArray cJSONArray heap) with
                | none => rfl
                | some found => rfl
              · rw [if_neg hsome, hbehind]
                have hnull : cell.child = none := by simpa using hsome
                rw [hnull] at hchild
                rw [hchild.eq_nil]
                rfl

/-- **The search**: it ends on every forest, with the first array in pre-order, and with a null pointer
when there is none. -/
theorem getArrayNode_preorder {heap : Heap Addr} {node : Option Addr} {forest : List (RoseTree Addr)}
    (h : Holds heap node forest) :
    ∃ result,
      (∀ fuel, (preorder forest).length < fuel →
        getArrayNode cJSONArray heap fuel node = some result) ∧
      (∀ found, result = some found ↔
        FirstIn (isArray cJSONArray heap · = true) (preorder forest) found) ∧
      (result = none ↔ ∀ other ∈ preorder forest, isArray cJSONArray heap other = false) := by
  refine ⟨_, fun fuel hfuel => getArrayNode_of_holds cJSONArray h hfuel, ?_, ?_⟩
  · exact fun found => find?_eq_some_iff_firstIn
  · simp only [List.find?_eq_none, Bool.not_eq_true]

end Search

/-- `{"id":3,"result":{"experience":"X1","features":["A"]},"list":[]}` in memory, with the types of
cJSON.h: 8 is a number, 16 a string, 32 an array and 64 an object. -/
def responseHeap : Heap Nat
  | 0 => some ⟨64, some 1, none⟩
  | 1 => some ⟨8, none, some 2⟩
  | 2 => some ⟨64, some 3, some 6⟩
  | 3 => some ⟨16, none, some 4⟩
  | 4 => some ⟨32, some 5, none⟩
  | 5 => some ⟨16, none, none⟩
  | 6 => some ⟨32, none, none⟩
  | _ => none

/-- The addresses of the response. -/
def responseForest : List (RoseTree Nat) :=
  [.node 0 [.node 1 [], .node 2 [.node 3 [], .node 4 [.node 5 []]], .node 6 []]]

theorem holds_responseForest : Holds responseHeap (some 0) responseForest :=
  .node rfl (.node rfl .null (.node rfl (.node rfl .null (.node rfl (.node rfl .null .null) .null))
    (.node rfl .null .null))) .null

theorem getArrayNode_preorder_response :
    getArrayNode 32 responseHeap 8 (some 0) = some (some 4) := by
  obtain ⟨result, hruns, hfirst, -⟩ := getArrayNode_preorder 32 holds_responseForest
  have hfound : result = some 4 := (hfirst 4).mpr ⟨[0, 1, 2, 3], [5, 6], rfl, rfl, by decide⟩
  rw [hruns 8 (by decide), hfound]

/-! ### Parsed values in memory -/

section Stored

variable {Addr : Type*} (cJSONArray : BitVec 32) (heap : Heap Addr)

/-- From a pointer on, the heap has the items of these values. -/
inductive Stored : Option Addr → List Json → Prop where
  | null : Stored none []
  | node {address : Addr} {item : Item Addr} {json : Json} {later : List Json}
      (hitem : heap address = some item)
      (htype : isNodeArrayType cJSONArray item = json.arrayItems.isSome)
      (hchild : Stored item.child (json.children.map (·.2))) (hnext : Stored item.next later) :
      Stored (some address) (json :: later)

/-- The item of a value, with all that is below it. -/
def StoredAt (address : Addr) (json : Json) : Prop :=
  ∃ item, heap address = some item ∧ isNodeArrayType cJSONArray item = json.arrayItems.isSome ∧
    Stored cJSONArray heap item.child (json.children.map (·.2))

variable {cJSONArray heap}

theorem preorder_json (json : Json) :
    JsonHandler.preorder json = json :: (json.children.map (·.2)).flatMap JsonHandler.preorder := by
  have hitems (items : List Json) :
      JsonHandler.preorderItems items = items.flatMap JsonHandler.preorder := by
    induction items with
    | nil => rfl
    | cons item items ih => rw [JsonHandler.preorderItems, ih, List.flatMap_cons]
  have hmembers (members : List (Str × Json)) :
      JsonHandler.preorderMembers members = (members.map (·.2)).flatMap JsonHandler.preorder := by
    induction members with
    | nil => rfl
    | cons member members ih => rw [JsonHandler.preorderMembers, ih, List.map_cons, List.flatMap_cons]
  cases json with
  | array items => simp [JsonHandler.preorder, Json.children, hitems, Function.comp_def]
  | object members => simp [JsonHandler.preorder, Json.children, hmembers, Function.comp_def]
  | null => rfl
  | bool value => rfl
  | number printed => rfl
  | string valuestring => rfl

/-- The heap of some values is that of a forest, whose nodes are the items of the values in the order of
the text. -/
theorem Stored.exists_holds {node : Option Addr} {nodes : List Json}
    (h : Stored cJSONArray heap node nodes) :
    ∃ forest, Holds heap node forest ∧
      List.Forall₂ (StoredAt cJSONArray heap) (preorder forest)
        (nodes.flatMap JsonHandler.preorder) := by
  induction h with
  | null => exact ⟨[], .null, .nil⟩
  | node hitem htype hchild hnext ihchild ihnext =>
      obtain ⟨children, hchildren, hbelow⟩ := ihchild
      obtain ⟨later, hlater, hbehind⟩ := ihnext
      refine ⟨_, .node hitem hchildren hlater, ?_⟩
      rw [preorder_node, List.flatMap_cons, preorder_json, List.cons_append]
      exact .cons ⟨_, hitem, htype, hchild⟩ (List.rel_append hbelow hbehind)

/-- A list of items and one of their values have their first arrays in the same place. -/
theorem find?_of_storedAt {addresses : List Addr} {values : List Json}
    (h : List.Forall₂ (StoredAt cJSONArray heap) addresses values) :
    (addresses.find? (isArray cJSONArray heap) = none ∧ values.findSome? Json.arrayItems = none) ∨
      ∃ found items, addresses.find? (isArray cJSONArray heap) = some found ∧
        values.findSome? Json.arrayItems = some items ∧
        StoredAt cJSONArray heap found (.array items) := by
  induction h with
  | nil => exact Or.inl ⟨rfl, rfl⟩
  | @cons address json addresses values hstored _ ih =>
      have harray : isArray cJSONArray heap address = json.arrayItems.isSome := by
        obtain ⟨item, hitem, htype, -⟩ := hstored
        rw [isArray, hitem, Option.any_some, htype]
      rw [List.find?_cons, List.findSome?_cons, harray]
      cases json with
      | array items => exact Or.inr ⟨address, items, rfl, rfl, hstored⟩
      | null => exact ih
      | bool value => exact ih
      | number printed => exact ih
      | string valuestring => exact ih
      | object members => exact ih

/-- The search over values is the search over their items. -/
theorem getArrayNode_of_stored {node : Option Addr} {nodes : List Json}
    (h : Stored cJSONArray heap node nodes) {fuel : Nat}
    (hfuel : (nodes.flatMap JsonHandler.preorder).length < fuel) :
    (getArrayNode cJSONArray heap fuel node = some none ∧ JsonHandler.getArrayNode nodes = none) ∨
      ∃ found items, getArrayNode cJSONArray heap fuel node = some (some found) ∧
        JsonHandler.getArrayNode nodes = some items ∧
        StoredAt cJSONArray heap found (.array items) := by
  obtain ⟨forest, hholds, hitems⟩ := h.exists_holds
  rw [← hitems.length_eq] at hfuel
  rw [getArrayNode_of_holds cJSONArray hholds hfuel, JsonHandler.getArrayNode_eq]
  simpa only [Option.some.injEq] using find?_of_storedAt hitems

end Stored

end RfcMgr.CJson
