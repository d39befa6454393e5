import RfcMgr.Download
import RfcMgr.Percent

/-! The query of the request URL decodes to the fields of the request. -/

namespace RfcMgr

/-- The fields `CreateXconfHTTPUrl` appends, in its order. -/
def requestFields (p : Processor) : List (Str × Str) :=
  [("estbMacAddress".toList, p.estbMacAddress),
    ("firmwareVersion".toList, p.firmwareVersion),
    ("env".toList, p.buildTypeStr),
    ("model".toList, p.modelNumber),
    ("manufacturer".toList, p.manufacturer),
    ("controllerId".toList, "2504".toList),
    ("channelMapId".toList, "2345".toList),
    ("VodId".toList, "15660".toList),
    ("partnerId".toList, p.partnerId),
    ("osClass".toList, p.osclass),
    ("accountId".toList, p.accountId),
    ("Experience".toList, p.experience),
    ("version".toList, "2".toList)]

/-- The identity the processor puts into a request. -/
def identityValues (p : Processor) : List Str :=
  [p.estbMacAddress, p.firmwareVersion, p.buildTypeStr, p.modelNumber, p.manufacturer, p.partnerId,
    p.osclass, p.accountId, p.experience]

/-- The content of a C string: bytes, none of them NUL. -/
def CString (s : Str) : Prop := ∀ c ∈ s, c.toNat < 256 ∧ c ≠ Char.ofNat 0

instance (s : Str) : Decidable (CString s) := List.decidableBAll _ s

/-- `urlEncodeString` keeps unreserved characters, writes every other byte as `%XX` and does not
fail. -/
def Env.PercentEncodes (env : Env) : Prop :=
  ∀ s, CString s → env.urlEncodeString s = some (Percent.encode s)

/-- A server reads a request: the base URL and the question mark go, the rest is a query string. -/
def decodeRequestUrl (baseUrl url : Str) : Option (List (Str × Str)) :=
  (url.dropPrefix? (baseUrl ++ "?".toList)).bind Percent.decodeQuery

theorem CString.bytes {s : Str} (h : CString s) : ∀ c ∈ s, c.toNat < 256 := fun c hc => (h c hc).1

theorem encodeString_eq {env : Env} (henc : env.PercentEncodes) (key : Str) {value : Str}
    (h : CString value) (appender : Str) :
    encodeString env key value appender = key ++ Percent.encode value ++ appender := by
  unfold encodeString
  split
  next hempty =>
    rw [hempty]
    rfl
  next =>
    rw [henc value h]
    rfl

/-- The constant fields are digits, which encode to themselves. -/
theorem createXconfHTTPUrl_eq {env : Env} (henc : env.PercentEncodes) {p : Processor}
    (h : ∀ value ∈ identityValues p, CString value) :
    createXconfHTTPUrl env p =
      p.xconfServerUrl ++ "?".toList ++ Percent.encodeQuery (requestFields p) := by
  simp only [identityValues, List.forall_mem_cons, List.not_mem_nil, false_imp_iff, implies_true,
    and_true] at h
  obtain ⟨hmac, hversion, henv, hmodel, hmanufacturer, hpartner, hosclass, haccount, hexperience⟩ := h
  rw [createXconfHTTPUrl]
  simp only [encodeString_eq henc _ hmac, encodeString_eq henc _ hversion,
    encodeString_eq henc _ henv, encodeString_eq henc _ hmodel,
    encodeString_eq henc _ hmanufacturer, encodeString_eq henc _ hpartner,
    encodeString_eq henc _ hosclass, encodeString_eq henc _ haccount,
    encodeString_eq henc _ hexperience, Percent.encodeQuery, requestFields, Percent.encodeField,
    List.map_cons, List.map_nil, List.intercalate, List.intersperse, List.flatten_cons,
    List.flatten_nil, List.append_nil]
  have hcontroller : Percent.encode "2504".toList = "2504".toList := by decide
  have hchannel : Percent.encode "2345".toList = "2345".toList := by decide
  have hvod : Percent.encode "15660".toList = "15660".toList := by decide
  have htwo : Percent.encode "2".toList = "2".toList := by decide
  rw [hcontroller, hchannel, hvod, htwo]
  simp

theorem requestFields_plain {p : Processor} (h : ∀ value ∈ identityValues p, CString value) :
    ∀ field ∈ requestFields p, Percent.Plain field := by
  intro field hfield
  have hnames : ∀ name ∈ (requestFields p).map (·.1), '=' ∉ name ∧ '&' ∉ name := by
    simp only [requestFields, List.map_cons, List.map_nil]
    decide
  have hname := hnames field.1 (List.mem_map_of_mem hfield)
  have hvalues : ∀ field ∈ requestFields p, CString field.2 := by
    simp only [requestFields, identityValues, List.forall_mem_cons, List.not_mem_nil,
      false_imp_iff, implies_true, and_true] at h ⊢
    unfold CString at h ⊢
    refine ⟨h.1, h.2.1, h.2.2.1, h.2.2.2.1, h.2.2.2.2.1, by simp, by simp, by simp,
      h.2.2.2.2.2.1, h.2.2.2.2.2.2.1, h.2.2.2.2.2.2.2.1, h.2.2.2.2.2.2.2.2, by simp⟩
  exact ⟨hname.1, hname.2, (hvalues field hfield).bytes⟩

/-- Whatever bytes the identity consists of, the server decodes the request to the names and values
`CreateXconfHTTPUrl` appends: none is missing, none is added. -/
theorem createXconfHTTPUrl_decodes (env : Env) (henc : env.PercentEncodes) (p : Processor)
    (h : ∀ value ∈ identityValues p, CString value) :
    decodeRequestUrl p.xconfServerUrl (createXconfHTTPUrl env p) = some (requestFields p) := by
  have hquery : (createXconfHTTPUrl env p).dropPrefix? (p.xconfServerUrl ++ "?".toList) =
      some (Percent.encodeQuery (requestFields p)) := by
    rw [createXconfHTTPUrl_eq henc h, List.dropPrefix?_eq_some_iff]
    exact ⟨_, rfl, beq_self_eq_true _⟩
  rw [decodeRequestUrl, hquery, Option.bind_some]
  exact Percent.decodeQuery_encodeQuery (List.cons_ne_nil _ _) (requestFields_plain h)

theorem createXconfHTTPUrl_decodes_special :
    let env : Env := { Env.plain with urlEncodeString := fun s => some (Percent.encode s) }
    let p : Processor := { Processor.fresh with
      modelNumber := "a&b=%2?# ".toList ++ [Char.ofNat 195, Char.ofNat 169]
      partnerId := [] }
    env.PercentEncodes ∧
      decodeRequestUrl p.xconfServerUrl (createXconfHTTPUrl env p) = some (requestFields p) := by
  intro env p
  have henc : env.PercentEncodes := fun _ _ => rfl
  have hidentity : ∀ value ∈ identityValues p, CString value := by decide
  exact ⟨henc, createXconfHTTPUrl_decodes env henc p hidentity⟩

end RfcMgr
