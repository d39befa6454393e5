import RfcMgr.ParamDecisions
import RfcMgr.SuppressedParams
import RfcMgr.KeyValueLines

/-! Which parameters `isConfigValueChange` leaves out. A parameter of `bootstrap.ini` is set in any case,
but every name that a line of the file mentions is taken for one of its keys. -/

namespace RfcMgr

open KeyValueLines

/-- The keys of a file: what stands in front of the first `=` of each line that is no comment. -/
def storeKeys (comment : Str → Bool) (file : Option Str) : List Str :=
  (((getLines (file.getD [])).filter fun line => !comment line).filterMap splitEntry).map (·.1)

/-- A line of the file has the name somewhere in it. -/
def Mentions (file : Option Str) (key : Str) : Prop := ∃ line ∈ getLines (file.getD []), key <:+: line

def InRfcNamespace (key : Str) : Prop := ".X_RDKCENTRAL-COM_RFC.".toList <:+: key

/-- A parameter that need not be set. -/
structure MaySkip (comment : Str → Bool) (file : Option Str) (key value currentValue : Str) : Prop where
  same : value = currentValue
  outside : ¬ InRfcNamespace key
  ordinary : key ∉ storeKeys comment file

/-- What counts as a change is just what may not be skipped. -/
def SkipsRight (changed : Bool) (comment : Str → Bool) (file : Option Str)
    (key value currentValue : Str) : Prop :=
  changed = false ↔ MaySkip comment file key value currentValue

/-- An unchanged parameter outside the namespace is only mentioned in the file as a key of it. -/
def MentionedAsKey (comment : Str → Bool) (file : Option Str) (key value currentValue : Str) : Prop :=
  value = currentValue → ¬ InRfcNamespace key → Mentions file key → key ∈ storeKeys comment file

/-- The value is one that an account is not set to, and the name has that of the account in it. -/
def UnknownAccount (key value : Str) : Prop :=
  rfcAccountIdKeyStr <:+: key ∧ stringCaseCompare value unknownStr = true

/-! ### Names and lines -/

/-- The test that picks the parameters whose value is compared. -/
theorem ordinary_iff {is_Bootstrap : Bool} {key : Str} :
    (!is_Bootstrap && !contains key ".X_RDKCENTRAL-COM_RFC.".toList) = true ↔
      ¬ is_Bootstrap = true ∧ ¬ InRfcNamespace key := by
  rw [Bool.and_eq_true, Bool.not_eq_true', Bool.not_eq_true', Bool.not_eq_true, contains,
    decide_eq_false_iff_not, InRfcNamespace]

theorem UnknownAccount.inRfcNamespace {key value : Str} (h : UnknownAccount key value) :
    InRfcNamespace key := (of_decide_eq_true contains_rfcAccountIdKeyStr).trans h.1

/-- A key stands in its line. -/
theorem mentions_of_mem_storeKeys {comment : Str → Bool} {file : Option Str} {key : Str}
    (h : key ∈ storeKeys comment file) : Mentions file key := by
  obtain ⟨entry, hentry, rfl⟩ := List.mem_map.mp h
  obtain ⟨line, hline, hsplit⟩ := List.mem_filterMap.mp hentry
  obtain ⟨-, hassigns⟩ := splitEntry_eq_some_iff.mp hsplit
  exact ⟨line, (List.mem_filter.mp hline).1, [], '=' :: entry.2, hassigns.symm⟩

theorem not_mentions_none (key : Str) : ¬ Mentions none key := by
  rintro ⟨line, hline, -⟩
  exact List.not_mem_nil hline

theorem any_contains_iff {text key : Str} :
    ((fileLines text).any fun line => contains line key) = true ↔ Mentions (some text) key := by
  simp only [List.any_eq_true, contains, decide_eq_true_eq]
  rfl

theorem checkBootstrap_iff {dev : Device} {key : Str} :
    checkBootstrap dev key = true ↔ Mentions (dev.files bsStoreFilename) key := by
  unfold checkBootstrap
  cases dev.files bsStoreFilename with
  | none => exact iff_of_false Bool.false_ne_true (not_mentions_none key)
  | some text => exact any_contains_iff

/-! ### The check -/

/-- A check that goes by what is mentioned, and that skips besides what is some `other` of the
namespace. -/
theorem skipsRight_iff {changed : Bool} {comment : Str → Bool} {file : Option Str}
    {key value currentValue : Str} {other : Prop} (hother : other → InRfcNamespace key)
    (h : changed = false ↔
      (¬ Mentions file key ∧ ¬ InRfcNamespace key ∧ value = currentValue) ∨ other) :
    SkipsRight changed comment file key value currentValue ↔
      MentionedAsKey comment file key value currentValue ∧ ¬ other := by
  have hkey : key ∈ storeKeys comment file → Mentions file key := mentions_of_mem_storeKeys
  have hskip : MaySkip comment file key value currentValue ↔
      value = currentValue ∧ ¬ InRfcNamespace key ∧ key ∉ storeKeys comment file :=
    ⟨fun ⟨hsame, houtside, hordinary⟩ => ⟨hsame, houtside, hordinary⟩,
      fun ⟨hsame, houtside, hordinary⟩ => ⟨hsame, houtside, hordinary⟩⟩
  rw [SkipsRight, h, hskip, MentionedAsKey]
  tauto

theorem checkAgainst_changed_iff {is_Bootstrap : Bool} {key value currentValue : Str} :
    (checkAgainst is_Bootstrap key value currentValue).changed = false ↔
      (¬ is_Bootstrap = true ∧ ¬ InRfcNamespace key ∧ value = currentValue) ∨
        UnknownAccount key value := by
  have haccount : (contains key rfcAccountIdKeyStr && stringCaseCompare value unknownStr) = true ↔
      UnknownAccount key value := by
    rw [Bool.and_eq_true, contains, decide_eq_true_iff, UnknownAccount]
  rw [checkAgainst, ← and_assoc, ← ordinary_iff]
  split
  next hordinary =>
    rw [and_iff_right hordinary, or_iff_left fun h => (ordinary_iff.mp hordinary).2 h.inRfcNamespace]
    exact decide_eq_false_iff_not.trans not_not
  next hspecial =>
    rw [or_iff_right fun h => hspecial h.1, ← haccount]
    split
    next hunknown => exact iff_of_true rfl hunknown
    next hknown => exact iff_of_false (by simp) hknown

theorem isConfigValueChange_changed_iff {env : Env} {st : St} {key value currentValue current : Str}
    (hread : (st.read env key 4096).1 = some current) :
    (isConfigValueChange env key value currentValue st).1.changed = false ↔
      (¬ Mentions (st.dev.files bsStoreFilename) key ∧ ¬ InRfcNamespace key ∧ value = current) ∨
        UnknownAccount key value := by
  have hanswer : (answers env key value st).read = some current := hread
  rw [isConfigValueChange_eq, checkOf, hanswer, ← checkBootstrap_iff]
  exact checkAgainst_changed_iff

namespace Rdkb

theorem checkBootstrap_iff {env : Env} {st : St} {key : Str} :
    checkBootstrap env st key = true ↔ Mentions (env.bsStore st.calls) key := by
  unfold checkBootstrap
  cases env.bsStore st.calls with
  | none => exact iff_of_false Bool.false_ne_true (not_mentions_none key)
  | some text => exact any_contains_iff

/-- The RDKB build has no branch for the account. -/
theorem isConfigValueChange_changed_iff {env : Env} {st : St} {key value currentValue current : Str}
    (hread : (readRFCProperty env key 4096 st).1 = some current) :
    (isConfigValueChange env key value currentValue st).1.1 = false ↔
      (¬ Mentions (env.bsStore (readRFCProperty env key 4096 st).2.calls) key ∧ ¬ InRfcNamespace key ∧
        value = current) ∨ False := by
  rw [isConfigValueChange, ← checkBootstrap_iff, or_false, ← and_assoc, ← ordinary_iff]
  generalize readRFCProperty env key 4096 st = result at hread
  obtain ⟨read, st'⟩ := result
  obtain rfl : read = some current := hread
  dsimp only
  split
  next hordinary =>
    rw [and_iff_right hordinary]
    exact decide_eq_false_iff_not.trans not_not
  next hspecial => exact iff_of_false (by simp) fun h => hspecial h.1

end Rdkb

/-- **Skipping**: what is left out is what may be, in both builds, just when a line of `bootstrap.ini`
mentions no unchanged name but its own key, and no name around that of the account comes with an unknown
value. -/
theorem isConfigValueChange_skipsRight_iff (comment : Str → Bool)
    (key value currentValue current : Str) :
    (∀ (env : Env) (st : St), (st.read env key 4096).1 = some current →
      (SkipsRight (isConfigValueChange env key value currentValue st).1.changed comment
          (st.dev.files bsStoreFilename) key value current ↔
        MentionedAsKey comment (st.dev.files bsStoreFilename) key value current ∧
          ¬ UnknownAccount key value)) ∧
    (∀ (env : Rdkb.Env) (st : Rdkb.St), (Rdkb.readRFCProperty env key 4096 st).1 = some current →
      (SkipsRight (Rdkb.isConfigValueChange env key value currentValue st).1.1 comment
          (env.bsStore (Rdkb.readRFCProperty env key 4096 st).2.calls) key value current ↔
        MentionedAsKey comment (env.bsStore (Rdkb.readRFCProperty env key 4096 st).2.calls)
          key value current)) := by
  constructor
  · intro env st hread
    exact skipsRight_iff UnknownAccount.inRfcNamespace (isConfigValueChange_changed_iff hread)
  · intro env st hread
    rw [skipsRight_iff False.elim (Rdkb.isConfigValueChange_changed_iff hread), and_iff_left not_false]

/-- A device on which every parameter is `36`, with this text in `bootstrap.ini`. -/
def St.bootstrapped (text : Str) : St :=
  ⟨.fresh, { Device.blank with files := fun _ => some text, rfcStore := fun _ => some "36".toList }, []⟩

def Rdkb.Env.bootstrapped (text : Str) : Rdkb.Env :=
  { Rdkb.allTrue with
    rbusGet := fun _ _ => some (.string (some "36".toList))
    bsStore := fun _ => some text }

def channel : Str := "Device.WiFi.Radio.1.Channel".toList

/-- A file of another parameter, which `Device.WiFi.Radio.1.Channel` is no part of. -/
def otherStore : Str := "Device.WiFi.Radio.1.Enable=true\n".toList

/-- One whose key goes on behind `Device.WiFi.Radio.1.Channel`. -/
def longerStore : Str := "Device.WiFi.Radio.1.ChannelsInUse=36\n".toList

theorem isConfigValueChange_skipsRight_channel :
    SkipsRight (isConfigValueChange .plain channel "36".toList [] (.bootstrapped otherStore)).1.changed
        (fun _ => false) (some otherStore) channel "36".toList "36".toList ∧
      SkipsRight (Rdkb.isConfigValueChange (.bootstrapped otherStore) channel "36".toList []
          ⟨.fresh, [], false⟩).1.1
        (fun _ => false) (some otherStore) channel "36".toList "36".toList := by
  have hmentions : MentionedAsKey (fun _ => false) (some otherStore) channel "36".toList
      "36".toList := by
    intro _ _ hmentions
    have hnone : ¬ ∃ line ∈ getLines otherStore, channel <:+: line := by decide +kernel
    exact absurd hmentions hnone
  have hknown : ¬ UnknownAccount channel "36".toList := fun h => by
    have hdiffers : stringCaseCompare "36".toList unknownStr = false := by decide
    exact Bool.false_ne_true (hdiffers.symm.trans h.2)
  obtain ⟨hdevice, hbus⟩ := isConfigValueChange_skipsRight_iff (fun _ => false) channel "36".toList []
    "36".toList
  exact ⟨(hdevice .plain (.bootstrapped otherStore) rfl).mpr ⟨hmentions, hknown⟩,
    (hbus (.bootstrapped otherStore) ⟨.fresh, [], false⟩ rfl).mpr hmentions⟩

/-- The unchanged `Device.WiFi.Radio.1.Channel` is set again for the sake of
`Device.WiFi.Radio.1.ChannelsInUse`. -/
theorem not_skipsRight_channel :
    ¬ SkipsRight
      (isConfigValueChange .plain channel "36".toList [] (.bootstrapped longerStore)).1.changed
      (fun _ => false) (some longerStore) channel "36".toList "36".toList := by
  intro hskips
  have hread : (St.read .plain (.bootstrapped longerStore) channel 4096).1 = some "36".toList := rfl
  have hright :=
    (skipsRight_iff UnknownAccount.inRfcNamespace (isConfigValueChange_changed_iff hread)).mp hskips
  have hmentions : Mentions (some longerStore) channel := by
    have hsome : ∃ line ∈ getLines longerStore, channel <:+: line := by decide +kernel
    exact hsome
  have houtside : ¬ InRfcNamespace channel := by
    unfold InRfcNamespace
    decide +kernel
  have hkey : channel ∈ storeKeys (fun _ => false) (some longerStore) :=
    hright.1 rfl houtside hmentions
  revert hkey
  decide +kernel

end RfcMgr
