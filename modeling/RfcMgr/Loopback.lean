import RfcMgr.HostifReply
import RfcMgr.VariableFile

/-! `read_RFCProperty` and `set_RFCProperty` down to the texts that go to the hostif and come back from it
(STB build), under the calls of `Device`: no caller that keeps to plain names and values can tell a hostif
that serves a device on the loopback from the calls on that device. -/

namespace RfcMgr.Loopback

open JsonText hiding readString
open RfcApi

/-! ### The calls on the loopback -/

/-- What a transfer brings; without one, curl has failed or given no handle. -/
abbrev Transfer := Option Str

/-- The http server of the hostif. -/
structure Server (σ : Type) where
  get : σ → Str → Transfer × σ
  post : σ → Str → Transfer × σ

/-- What a process meets when it calls the API. -/
structure World (σ : Type) where
  hostif : σ
  files : LocalFiles
  /-- `/tmp/.tr69hostif_http_server_ready` is there. -/
  readyFile : Bool
  /-- `tr69hostif_http_server_ready` of the process. -/
  serverReady : Bool

section Calls

variable {σ : Type} (numberInt : Str → Int) (server : Server σ)

/-- `WDMP_NONE`, the type of a parameter that a file holds. -/
def wdmpNone : Int := DataType.none.number

/-- `none` is the use of a null string in a reply. -/
def getRFCParameter (name : Str) (param : ParamData) (w : World σ) :
    Option (WdmpStatus × ParamData) × World σ :=
  if Wildcard name then (some (.failure, param), w)
  else if w.serverReady = false ∧ w.readyFile = false then
    match RfcApi.getRFCParameter w.files name with
    | (status, none) => (some (status, param), w)
    | (status, some value) =>
        (some (status, ⟨some (copied name), some wdmpNone, some value⟩), w)
  else
    match server.get w.hostif (getData name) with
    | (none, hostif) => (some (.failure, param), { w with hostif := hostif, serverReady := true })
    | (some reply, hostif) =>
        (readReply numberInt (parse reply) param, { w with hostif := hostif, serverReady := true })

/-- The text of a set, the data type as the number it is. -/
def setText (name value : Str) (eDataType : Int) : Str :=
  "\x7b\"parameters\" : [\x7b\"name\":\"".toList ++ name ++ "\",\"value\":\"".toList ++ value ++
    "\",\"dataType\":".toList ++ (toString eDataType).toList ++ "\x7d]\x7d".toList

/-- With a value no name is refused, and nobody asks whether the server is ready. -/
def setRFCParameter (name value : Str) (eDataType : Int) (w : World σ) : WdmpStatus × World σ :=
  match server.post w.hostif (setText name value eDataType) with
  | (none, hostif) => (.failure, { w with hostif := hostif })
  | (some reply, hostif) =>
      ((parse reply).elim .failure (replyStatus numberInt), { w with hostif := hostif })

/-- `memset(&param, 0, sizeof(RFC_ParamData_t))`. -/
def zeroed : ParamData := ⟨some [], some 0, some []⟩

/-- The inner `none` is `READ_RFC_FAILURE`. -/
def readRFCProperty (key : Str) (datasize : Nat) (w : World σ) : Option (Option Str) × World σ :=
  match getRFCParameter numberInt server key zeroed w with
  | (none, w) => (none, w)
  | (some (status, param), w) =>
      (some (if status = .success ∨ status = .errDefaultValue then
        some (Device.readValue (param.value.getD []) datasize) else none), w)

def setRFCProperty (key value : Str) (w : World σ) : Option WdmpStatus × World σ :=
  match getRFCParameter numberInt server key zeroed w with
  | (none, w) => (none, w)
  | (some (status, param), w) =>
      if param.type ≠ some wdmpNone then
        (some status, (setRFCParameter numberInt server key value (param.type.getD 0) w).2)
      else (some status, w)

end Calls

/-! ### A caller -/

/-- What a process does with the two calls, as far as it depends on their answers. -/
inductive Caller where
  | stop
  | read (key : Str) (datasize : Nat) (next : Option Str → Caller)
  | set (key value : Str) (next : WdmpStatus → Caller)

inductive Answer where
  | read (value : Option Str)
  | set (status : WdmpStatus)

namespace Caller

/-- Its names and values may stand between quotes as they are. -/
def Plain : Caller → Prop
  | .stop => True
  | .read key _ next => JsonText.Plain key ∧ ∀ value, (next value).Plain
  | .set key value next => JsonText.Plain key ∧ JsonText.Plain value ∧ ∀ status, (next status).Plain

/-- What it hears from a device, and what it leaves. -/
def onDevice (h : Hostif) : Caller → Device → List Answer × Device
  | .stop, dev => ([], dev)
  | .read key datasize next, dev =>
      let (value, dev) := dev.readRFCProperty h key datasize
      let (answers, dev) := (next value).onDevice h dev
      (.read value :: answers, dev)
  | .set key value next, dev =>
      let (status, dev) := dev.setRFCProperty h key value
      let (answers, dev) := (next status).onDevice h dev
      (.set status :: answers, dev)

/-- What it hears over the loopback, unless a null string stops it. -/
def onLoopback {σ : Type} (numberInt : Str → Int) (server : Server σ) :
    Caller → World σ → Option (List Answer) × World σ
  | .stop, w => (some [], w)
  | .read key datasize next, w =>
      match readRFCProperty numberInt server key datasize w with
      | (none, w) => (none, w)
      | (some value, w) =>
          let (answers, w) := (next value).onLoopback numberInt server w
          (answers.map (.read value :: ·), w)
  | .set key value next, w =>
      match setRFCProperty numberInt server key value w with
      | (none, w) => (none, w)
      | (some status, w) =>
          let (answers, w) := (next status).onLoopback numberInt server w
          (answers.map (.set status :: ·), w)

end Caller

/-! ### A hostif that serves a device -/

section Serves

variable {σ : Type} (numberInt : Str → Int) (server : Server σ) (h : Hostif)

/-- One parameter, with a value and a data type where the device has them to give. -/
structure IsReply (response item : Value) (reply : GetReply) (value : Str) : Prop where
  parameters : subitems response = [item]
  name : StringMember item "name"
  message : StringMember item "message"
  value : getObjectItem item "value" = if reply.hasValue then some (.string value) else none
  dataType : (getObjectItem item "dataType").map (valueInt numberInt) =
    reply.type.map fun type => (type.number : Int)
  status : replyStatus numberInt response = reply.status

/-- The server reads requests as JSON texts and answers them as the device does that its state shows. -/
structure Serves (shows : σ → Device → Prop) : Prop where
  get : ∀ s dev name data, shows s dev → ¬ Wildcard name → Plain name →
    parse data = some (namesValue name) →
      ∃ text response item s', server.get s data = (some text, s') ∧ parse text = some response ∧
        IsReply numberInt response item (h.getReply name (dev.gets name))
          ((dev.rfcStore name).getD (h.dflt name)) ∧
        shows s' (dev.getRFCParameter h name).2.2
  post : ∀ s dev name value type data, shows s dev → Plain name → Plain value →
    parse data = some (parametersValue name value type) →
      ∃ text response s', server.post s data = (some text, s') ∧ parse text = some response ∧
        replyStatus numberInt response = h.setReply name (dev.sets name) value type ∧
        shows s' (dev.setRFCParameter h name value type).2

variable {numberInt server h}

/-- A reply is read as what the device has to give, into a structure of zeros. -/
theorem readReply_of_isReply {response item : Value} {reply : GetReply} {value : Str}
    (hreply : IsReply numberInt response item reply value) :
    ∃ param, readReply numberInt (some response) zeroed = some (reply.status, param) ∧
      param.value = some (if reply.hasValue then copied value else []) ∧
      param.type = some ((reply.type.getD .string).number : Int) := by
  obtain ⟨name, hname⟩ :=
    Option.isSome_iff_exists.mp ((readString_isSome_iff item "name").mpr hreply.name)
  obtain ⟨message, hmessage⟩ := Option.isSome_iff_exists.mp
    ((readString_isSome_iff item "message").mpr hreply.message)
  have hvalue : readString item "value" = some (if reply.hasValue then some value else none) := by
    rw [readString, hreply.value]
    cases reply.hasValue with
    | false => rfl
    | true => rfl
  have hread : readReply numberInt (some response) zeroed =
      some (reply.status, ⟨(name.map copied).or zeroed.name,
        (reply.type.map fun type => (type.number : Int)).or zeroed.type,
        ((if reply.hasValue then some value else none).map copied).or zeroed.value⟩) := by
    simp only [readReply, hreply.parameters, List.foldlM_cons, List.foldlM_nil, readSubitem, hname, hvalue,
      hmessage, hreply.dataType, hreply.status, Option.bind_eq_bind, Option.bind_some, Option.pure_def,
      Option.map_some]
  refine ⟨_, hread, ?_, ?_⟩
  · cases reply.hasValue with
    | false => rfl
    | true => rfl
  · cases reply.type with
    | none => rfl
    | some type => rfl

variable {shows : σ → Device → Prop} {w : World σ} {dev : Device} {key value : Str}

/-- The process knows that the server is ready, or will find the file. -/
def Ready (w : World σ) : Prop := w.serverReady = true ∨ w.readyFile = true

theorem Ready.not_local (h : Ready w) : ¬ (w.serverReady = false ∧ w.readyFile = false) := by
  intro ⟨hserver, hfile⟩
  rcases h with h | h
  · exact Bool.false_ne_true (hserver.symm.trans h)
  · exact Bool.false_ne_true (hfile.symm.trans h)

theorem getRFCParameter_serves (hserves : Serves numberInt server h shows) (hshows : shows w.hostif dev)
    (hready : Ready w) (hkey : Plain key) :
    ∃ param w', getRFCParameter numberInt server key zeroed w =
        (some ((dev.getRFCParameter h key).1, param), w') ∧
      param.value = some (dev.getRFCParameter h key).2.1.value ∧
      param.type = some ((dev.getRFCParameter h key).2.1.type.number : Int) ∧
      shows w'.hostif (dev.getRFCParameter h key).2.2 ∧ Ready w' := by
  rw [getRFCParameter]
  by_cases hwild : Wildcard key
  · have hdev : dev.getRFCParameter h key = (.failure, .zero, dev) := if_pos hwild
    rw [if_pos hwild, hdev]
    exact ⟨zeroed, w, rfl, rfl, rfl, hshows, hready⟩
  · obtain ⟨text, response, item, s', hget, hparse, hreply, hnext⟩ :=
      hserves.get w.hostif dev key (getData key) hshows hwild hkey (parse_getData_of_plain key hkey)
    obtain ⟨param, hread, hvalue, htype⟩ := readReply_of_isReply hreply
    have hdev : dev.getRFCParameter h key = _ := if_neg hwild
    rw [if_neg hwild, if_neg hready.not_local, hget]
    simp only [hparse, hread]
    rw [hdev] at hnext ⊢
    exact ⟨param, _, rfl, hvalue, htype, hnext, .inl rfl⟩

theorem setText_number (name value : Str) (type : DataType) :
    setText name value type.number = setData name value type := by
  have hdigits : (toString (type.number : Int)).toList = type.digits := by
    cases type <;> rfl
  unfold setText setData
  rw [hdigits]

theorem setRFCParameter_serves (hserves : Serves numberInt server h shows) (hshows : shows w.hostif dev)
    (hkey : Plain key) (hvalue : Plain value) (type : DataType) :
    (setRFCParameter numberInt server key value type.number w).1 =
        (dev.setRFCParameter h key value type).1 ∧
      shows (setRFCParameter numberInt server key value type.number w).2.hostif
        (dev.setRFCParameter h key value type).2 ∧
      (Ready w → Ready (setRFCParameter numberInt server key value type.number w).2) := by
  obtain ⟨text, response, s', hpost, hparse, hstatus, hnext⟩ :=
    hserves.post w.hostif dev key value type (setData key value type) hshows hkey hvalue
      (parse_setData_of_plain key value type hkey hvalue)
  rw [setRFCParameter, setText_number, hpost]
  simp only [hparse]
  exact ⟨hstatus, hnext, id⟩

theorem readRFCProperty_serves (hserves : Serves numberInt server h shows) (hshows : shows w.hostif dev)
    (hready : Ready w) (hkey : Plain key) (datasize : Nat) :
    ∃ w', readRFCProperty numberInt server key datasize w =
        (some (dev.readRFCProperty h key datasize).1, w') ∧
      shows w'.hostif (dev.readRFCProperty h key datasize).2 ∧ Ready w' := by
  obtain ⟨param, w', hget, hvalue, -, hnext, hready'⟩ := getRFCParameter_serves hserves hshows hready hkey
  refine ⟨w', ?_, ?_, hready'⟩
  · rw [readRFCProperty, hget]
    simp only [hvalue, Option.getD_some, Device.readRFCProperty]
    split
    · rfl
    · rfl
  · rwa [Device.readRFCProperty_snd]

theorem number_eq_none_iff (type : DataType) :
    some (type.number : Int) = some wdmpNone ↔ type = .none := by
  cases type <;> decide

theorem setRFCProperty_serves (hserves : Serves numberInt server h shows) (hshows : shows w.hostif dev)
    (hready : Ready w) (hkey : Plain key) (hvalue : Plain value) :
    ∃ w', setRFCProperty numberInt server key value w = (some (dev.setRFCProperty h key value).1, w') ∧
      shows w'.hostif (dev.setRFCProperty h key value).2 ∧ Ready w' := by
  obtain ⟨param, w', hget, -, htype, hnext, hready'⟩ := getRFCParameter_serves hserves hshows hready hkey
  rw [setRFCProperty, hget, Device.setRFCProperty]
  simp only [htype, Option.getD_some]
  by_cases hnone : (dev.getRFCParameter h key).2.1.type = .none
  · rw [if_neg (not_not_intro ((number_eq_none_iff _).mpr hnone)), if_neg (not_not_intro hnone)]
    exact ⟨w', rfl, hnext, hready'⟩
  · obtain ⟨-, hset, hstill⟩ := setRFCParameter_serves hserves hnext hkey hvalue
      (dev.getRFCParameter h key).2.1.type
    rw [if_pos (mt (number_eq_none_iff _).mp hnone), if_pos hnone]
    exact ⟨_, rfl, hset, hstill hready'⟩

/-- **The loopback is a refinement of the device**: against a hostif that serves a device, once it is
ready, a caller that keeps to plain names and values hears what it would hear from that device, whatever it
makes of the answers, and the hostif goes on to serve the device that the caller leaves. -/
theorem onLoopback_eq_onDevice (hserves : Serves numberInt server h shows)
    (hshows : shows w.hostif dev) (hready : Ready w) (c : Caller) (hplain : c.Plain) :
    (c.onLoopback numberInt server w).1 = some (c.onDevice h dev).1 ∧
      shows (c.onLoopback numberInt server w).2.hostif (c.onDevice h dev).2 := by
  induction c generalizing w dev with
  | stop => exact ⟨rfl, hshows⟩
  | read key datasize next ih =>
      obtain ⟨hkey, hnext⟩ := hplain
      obtain ⟨w', hread, hshows', hready'⟩ := readRFCProperty_serves hserves hshows hready hkey datasize
      obtain ⟨hanswers, hleft⟩ := ih _ hshows' hready' (hnext (dev.readRFCProperty h key datasize).1)
      rw [Caller.onLoopback, hread, Caller.onDevice]
      simp only [hanswers, Option.map_some]
      exact ⟨trivial, hleft⟩
  | set key value next ih =>
      obtain ⟨hkey, hvalue, hnext⟩ := hplain
      obtain ⟨w', hset, hshows', hready'⟩ := setRFCProperty_serves hserves hshows hready hkey hvalue
      obtain ⟨hanswers, hleft⟩ := ih _ hshows' hready' (hnext (dev.setRFCProperty h key value).1)
      rw [Caller.onLoopback, hset, Caller.onDevice]
      simp only [hanswers, Option.map_some]
      exact ⟨trivial, hleft⟩

end Serves

/-! ### A hostif that stores what it is given -/

/-- The text of a reply behind the value. -/
def replyEnd : Str :=
  '"' :: ("dataType".toList ++ '"' :: ':' :: '0' :: '}' :: ']' :: ',' :: '"' ::
    ("statusCode".toList ++ ['"', ':', '0', '}']))

def replyText (value : Str) : Str :=
  '{' :: '"' :: ("parameters".toList ++ '"' :: ':' :: '[' :: '{' :: '"' ::
    ("value".toList ++ '"' :: ':' :: '"' :: (value ++ '"' :: ',' :: replyEnd)))

def replyItem (value : Str) : Value :=
  .object [("value".toList, .string value), ("dataType".toList, .number ['0'])]

def replyValue (value : Str) : Value :=
  .object [("parameters".toList, .array [replyItem value]), ("statusCode".toList, .number ['0'])]

theorem parse_replyText {value : Str} (hvalue : Plain value) :
    parse (replyText value) = some (replyValue value) := by
  have hfuel : ∃ k, (replyText value).length + 1 = k + 9 := by
    refine Nat.exists_eq_add_of_le' ?_
    have hkey : "parameters".toList.length = 10 := by simp
    rw [replyText]
    simp only [List.length_append, List.length_cons]
    omega
  obtain ⟨k, hk⟩ := hfuel
  have hstatusCode : Plain "statusCode".toList := by simp [Plain, plainChar]
  have hstatus : readMembers (k + 7) ('"' :: ("statusCode".toList ++ ['"', ':', '0', '}'])) =
      some ([("statusCode".toList, .number ['0'])], []) := by
    rw [readMembers_quote (k + 6) (readString_plain hstatusCode _) (rfl : skipBlanks [':', '0', '}'] = _)]
    rfl
  have hdataType : readMembers (k + 3) replyEnd = some ([("dataType".toList, .number ['0'])],
      ']' :: ',' :: '"' :: ("statusCode".toList ++ ['"', ':', '0', '}'])) := by
    rw [replyEnd, readMembers_quote (k + 2) (readString_plain plain_keys.2.2.2.2 _)
      (rfl : skipBlanks (':' :: _) = _)]
    exact readMember_last rfl
  have hstring : readValue (k + 3) ('"' :: (value ++ '"' :: ',' :: replyEnd)) =
      some (.string value, ',' :: replyEnd) := by
    rw [readValue_quote, readString_plain hvalue]
    rfl
  have hitem : readValue (k + 5) ('{' :: '"' :: ("value".toList ++ '"' :: ':' :: '"' ::
      (value ++ '"' :: ',' :: replyEnd))) = some (replyItem value,
        ']' :: ',' :: '"' :: ("statusCode".toList ++ ['"', ':', '0', '}'])) := by
    rw [readValue_object plain_keys.2.2.2.1 (rfl : skipBlanks (':' :: _) = _),
      readMember_comma hstring hdataType]
    rfl
  have harray : readValue (k + 7) ('[' :: '{' :: '"' :: ("value".toList ++ '"' :: ':' :: '"' ::
      (value ++ '"' :: ',' :: replyEnd))) = some (.array [replyItem value],
        ',' :: '"' :: ("statusCode".toList ++ ['"', ':', '0', '}'])) := by
    rw [readValue_bracket (by decide) (by decide), readItems_last hitem]
    rfl
  apply parse_of_readValue
  rw [hk, replyText, readValue_object plain_keys.2.1 (rfl : skipBlanks (':' :: _) = _),
    readMember_comma harray hstatus]
  rfl

/-- The digits as a number. -/
def digitsInt (digits : Str) : Int := digits.foldl (fun n c => 10 * n + (c.toNat - 48)) 0

def doneText : Str := ['{', '"', 's', 't', 'a', 't', 'u', 's', 'C', 'o', 'd', 'e', '"', ':', '0', '}']

/-- A set is stored as it is, and a get is answered with what is stored. -/
def storing : Server Device where
  get dev data :=
    match parse data with
    | some (.object [(_, .array [.string name])]) =>
        (some (replyText ((dev.rfcStore name).getD [])), (dev.getRFCParameter .willing name).2.2)
    | _ => (none, dev)
  post dev data :=
    match parse data with
    | some (.object [(_, .array [.object [(_, .string name), (_, .string value), _]])]) =>
        (some doneText, (dev.setRFCParameter .willing name value .string).2)
    | _ => (none, dev)

/-- The device of the state, whose values may stand between quotes as they are. -/
def Stores (s dev : Device) : Prop :=
  s = dev ∧ ∀ key value, dev.rfcStore key = some value → Plain value

theorem isReply_replyValue (value : Str) :
    IsReply digitsInt (replyValue value) (replyItem value) ⟨.success, true, some .string⟩ value where
  parameters := rfl
  name _ hitem := by cases hitem
  message _ hitem := by cases hitem
  value := rfl
  dataType := rfl
  status := rfl

theorem storing_serves : Serves digitsInt storing .willing Stores where
  get := by
    rintro s dev name data ⟨rfl, hplain⟩ _ _ hdata
    have hvalue : Plain ((s.rfcStore name).getD []) := by
      cases hstore : s.rfcStore name with
      | none => exact fun c hc => absurd hc List.not_mem_nil
      | some value => exact hplain name value hstore
    refine ⟨_, _, _, _, ?_, parse_replyText hvalue, isReply_replyValue _, rfl, ?_⟩
    · simp only [storing, hdata, namesValue]
    · rw [Device.getRFCParameter_rfcStore]
      exact hplain
  post := by
    rintro s dev name value type data ⟨rfl, hplain⟩ _ hvalue hdata
    have hpost : storing.post s data = (some doneText, (s.setRFCParameter .willing name value type).2) := by
      simp only [storing, hdata, parametersValue, parameterMembers]
      rfl
    have hdone : parse doneText = some (.object [(['s', 't', 'a', 't', 'u', 's', 'C', 'o', 'd', 'e'],
        .number ['0'])]) := rfl
    refine ⟨doneText, _, _, hpost, hdone, rfl, rfl, ?_⟩
    intro key value' hstore
    have hset : (s.setRFCParameter .willing name value type).2.rfcStore = s.storeAfterSet name value := rfl
    rw [hset, Device.storeAfterSet] at hstore
    split at hstore
    next => cases hstore
    next =>
      by_cases hkey : key = name
      · rw [hkey, Function.update_self] at hstore
        rwa [← Option.some.inj hstore]
      · rw [Function.update_of_ne hkey] at hstore
        exact hplain key value' hstore

/-- A caller that sets a parameter and reads it back. -/
def setAndRead : Caller := .set ['A'] ['1'] fun _ => .read ['A'] 64 fun _ => .stop

theorem onLoopback_eq_onDevice_setAndRead :
    (setAndRead.onLoopback digitsInt storing
        ⟨.blank, ⟨none, none, none, none, none⟩, true, false⟩).1 =
      some [.set .success, .read (some ['1'])] := by
  have hplain : setAndRead.Plain := by
    have hone : Plain ['1'] := by decide
    have hname : Plain ['A'] := by decide
    exact ⟨hname, hone, fun _ => ⟨hname, fun _ => trivial⟩⟩
  have hshows : Stores .blank .blank := ⟨rfl, fun _ _ hstore => by cases hstore⟩
  rw [(onLoopback_eq_onDevice storing_serves hshows (.inr rfl) setAndRead hplain).1]
  rfl

end RfcMgr.Loopback
