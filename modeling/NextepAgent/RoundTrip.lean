import NextepAgent.Decoding
import NextepAgent.JsonText

/-!
# Configurations, written and read back

`dumps` is one recursion over the fields of a record. The decoder is written by hand, with defaults,
shortcuts for falsy values and two discriminators. What ties them together is that a record that came
out of the decoder comes out of it again: `DecodedFrom` some payload implies `DecodedFrom` one's own
fields. The text in between is the business of `Json.loads_text`.

There need not be a text. The decoder looks into few of the values it is given and takes the others as
they are, however deep and however long, and the encoder gives up on some of them.

## What is deliberately absent

A record that did not come out of the decoder need not be read back. One with an empty node name
comes back with the name of the host.

## Main definitions

* `AgentConfig.asdict`, `AgentConfig.text`
* `AgentConfig.dumps`, `AgentConfig.loads`
* `loadPersisted` — reading `config.json`

## Main results

* `ExternalAcmeConfig.DecodedFrom.asdict`, `FlowConfig.DecodedFrom.asdict`,
  `AgentConfig.DecodedFrom.asdict` — decoding one's own fields
* `AgentConfig.DecodedFrom.plain_asdict` — no floats, and distinct keys
* `AgentConfig.loads_dumps` — the round trip, of what `dumps` returns, and when it returns
* `dumps_gives_up`
-/

namespace NextepAgent

/-! ### The encoder -/

/-- `str(p)`. -/
def AcmeProvider.value : AcmeProvider → String
  | .letsencrypt => "letsencrypt"
  | .letsencryptStaging => "letsencrypt-staging"
  | .internalAcme => "internal-acme"

/-- `str(p)`. -/
def DnsProvidersEnum.value : DnsProvidersEnum → String
  | .rfc2136 => "ddns"
  | .googleCloudDns => "googleclouddns"
  | .cloudflare => "cloudflare"

/-- `asdict(org)`. -/
def AgentOrganizationConfig.asdict (c : AgentOrganizationConfig) : Dict :=
  [("spog_url", c.spogUrl), ("smallstep_root_pem", c.smallstepRootPem),
    ("acme_directory_url", c.acmeDirectoryUrl), ("acme_admin_email", c.acmeAdminEmail)]

/-- `asdict(config)`, of an internal flow. -/
def InternalX5cConfig.asdict (c : InternalX5cConfig) : Dict :=
  [("ca_url", c.caUrl), ("provisioner", c.provisioner), ("x5c_cert_path", c.x5cCertPath),
    ("x5c_key_path", c.x5cKeyPath), ("root_bundle_path", c.rootBundlePath),
    ("hostname", c.hostname), ("permitted_sans", c.permittedSans)]

/-- The fields that are specific to one provider. -/
def ProviderFields.asdict : ProviderFields → Dict
  | .rfc2136 server tsigKey => [("server", server), ("tsig_key", tsigKey)]
  | .google projectId serviceAccountInfo =>
    [("project_id", projectId), ("service_account_info", serviceAccountInfo)]
  | .cloudflare apiToken zoneId => [("api_token", apiToken), ("zone_id", zoneId)]

/-- `asdict(dns_provider_config)`. -/
def DnsProviderConfig.asdict (c : DnsProviderConfig) : Dict :=
  [("domain", c.domain), ("propagation_delay", c.propagationDelay), ("ttl", c.ttl)] ++
    c.specific.asdict

/-- A field that may have been converted. -/
def Decoded.asJson {α : Type} (f : α → Json) : Decoded α → Json
  | .of a => f a
  | .raw v => v

/-- `asdict(config)`, of an external flow. -/
def ExternalAcmeConfig.asdict (c : ExternalAcmeConfig) : Dict :=
  [("acme_provider", c.acmeProvider.asJson fun p => .str p.value), ("domains", c.domains),
    ("dns_provider", c.dnsProvider.asJson fun p => .str p.value),
    ("dns_provider_config", c.dnsProviderConfig.asJson fun pc => .obj pc.asdict),
    ("account_dir", c.accountDir)]

/-- `asdict(config)`. -/
def FlowBody.asdict : FlowBody → Dict
  | .internal c => c.asdict
  | .external c => c.asdict

/-- `asdict(flow)`. -/
def FlowConfig.asdict (flow : FlowConfig) : Dict :=
  [("type", .str flow.type.value), ("method", .str flow.method.value), ("name", flow.name),
    ("cert_output_dir", flow.certOutputDir), ("key_output_dir", flow.keyOutputDir),
    ("config", .obj flow.config.asdict), ("post_renewal_script", flow.postRenewalScript),
    ("schedule_slot", flow.scheduleSlot), ("renew_before_days", flow.renewBeforeDays)]

/-- `asdict(c)`. -/
def AgentConfig.asdict (c : AgentConfig) : Dict :=
  [("node_name", c.nodeName),
    ("org", match c.org with
      | some org => .obj org.asdict
      | none => .null),
    ("flows", .arr (c.flows.map fun flow => .obj flow.asdict))]

/-- What `dumps` writes, if it gets through. -/
def AgentConfig.text (py : Interpreter) (c : AgentConfig) : String := Json.text py (.obj c.asdict)

/-- `AgentConfig.dumps`. -/
def AgentConfig.dumps (py : Interpreter) (c : AgentConfig) : Except Exc String :=
  Json.dumps py (.obj c.asdict)

/-- `AgentConfig.loads`. -/
def AgentConfig.loads (py : Interpreter) (hostname : String) (raw : String) :
    Except Exc AgentConfig := do
  AgentConfig.fromDict hostname (← Json.loads py raw)

/-- `_load_persisted`, of a file that is there. -/
def loadPersisted (py : Interpreter) (hostname : String) (content : Bytes) :
    Except Exc AgentConfig := do
  let text ← readText content
  AgentConfig.loads py hostname (String.ofList (text.scalars?.getD []))

/-! ### Decoding one's own fields -/

@[simp] theorem FlowType.ofJson_value (t : FlowType) : FlowType.ofJson (.str t.value) = .ok t := by
  cases t <;> rfl

@[simp] theorem FlowMethod.ofJson_value (m : FlowMethod) :
    FlowMethod.ofJson (.str m.value) = .ok m := by
  cases m <;> rfl

@[simp] theorem AcmeProvider.ofJson_value (p : AcmeProvider) :
    AcmeProvider.ofJson (.str p.value) = .ok p := by
  cases p <;> rfl

@[simp] theorem DnsProvidersEnum.ofJson_value (p : DnsProvidersEnum) :
    DnsProvidersEnum.ofJson (.str p.value) = .ok p := by
  cases p <;> rfl

theorem AgentOrganizationConfig.construct_asdict (c : AgentOrganizationConfig) :
    AgentOrganizationConfig.construct c.asdict = c := rfl

theorem InternalX5cConfig.construct_asdict (c : InternalX5cConfig) :
    InternalX5cConfig.construct c.asdict = c := rfl

theorem DnsProviderConfig.construct_asdict {p : DnsProvidersEnum} {c : DnsProviderConfig}
    (hp : c.specific.provider = p) : DnsProviderConfig.construct p c.asdict = .ok c := by
  obtain ⟨domain, delay, ttl, specific⟩ := c
  subst hp
  cases specific <;> rfl

theorem ExternalAcmeConfig.DecodedFrom.asdict {c : ExternalAcmeConfig} {raw : Dict}
    (h : c.DecodedFrom raw) : c.DecodedFrom c.asdict := by
  obtain ⟨hacme, -, hdns, -⟩ := h
  obtain ⟨acme, domains, provider, config, dir⟩ := c
  refine { acme := ?_, domains := rfl, dns := ?_, accountDir := rfl }
  · cases acme with
    | of p => exact .inr ⟨.str p.value, rfl, by cases p <;> rfl, AcmeProvider.ofJson_value p⟩
    | raw v => exact ⟨rfl, hacme.2⟩
  · cases provider with
    | of p =>
      cases config with
      | raw w => exact hdns.elim
      | of pc =>
        obtain ⟨-, -, d, -, hpc⟩ := hdns
        have hclass := DnsProviderConfig.provider_of_construct hpc
        exact ⟨by cases p <;> rfl, DnsProvidersEnum.ofJson_value p, pc.asdict, rfl,
          DnsProviderConfig.construct_asdict hclass⟩
    | raw v =>
      cases config with
      | of pc => exact hdns.elim
      | raw w =>
        obtain ⟨hfalse, rfl, rfl⟩ := hdns
        exact ⟨hfalse, rfl, rfl⟩

theorem FlowConfig.DecodedFrom.asdict {flow : FlowConfig} {raw : Dict}
    (h : flow.DecodedFrom raw) : flow.DecodedFrom flow.asdict := by
  obtain ⟨d, -, hbody⟩ := h.body
  obtain ⟨type, method, name, certDir, keyDir, config, script, slot, days⟩ := flow
  refine {
    type := ⟨.str type.value, rfl, FlowType.ofJson_value type⟩
    method := ?_
    body := ⟨config.asdict, by cases config <;> rfl, ?_⟩
    name := rfl, certOutputDir := rfl, keyOutputDir := rfl, postRenewalScript := rfl
    scheduleSlot := rfl, renewBeforeDays := rfl }
  · cases method <;> rfl
  · cases type with
    | internal =>
      cases config with
      | internal c => exact InternalX5cConfig.construct_asdict c
      | external c => exact hbody.elim
    | external =>
      cases config with
      | internal c => exact hbody.elim
      | external c =>
        have hc : c.DecodedFrom d := hbody
        exact hc.asdict

/-- **Decoding one's own fields.** -/
theorem AgentConfig.DecodedFrom.asdict {hostname : String} (hhost : hostname ≠ "") {data : Dict}
    {c : AgentConfig} (h : c.DecodedFrom hostname data) : c.DecodedFrom hostname c.asdict := by
  obtain ⟨hnode, horg, raws, -, hflows⟩ := h
  obtain ⟨nodeName, org, flows⟩ := c
  have htruthy : nodeName.truthy = true := by
    have hname : _ = nodeName := hnode
    rw [← hname]
    split
    · next htrue => exact htrue
    · simpa [Json.truthy] using hhost
  refine { nodeName := if_pos htruthy, org := ?_, flows := ?_ }
  · cases org with
    | none => rfl
    | some org => exact congrArg some (AgentOrganizationConfig.construct_asdict org)
  · refine ⟨flows.map FlowConfig.asdict, ?_, ?_⟩
    · show Json.dicts (.arr (flows.map fun flow => .obj flow.asdict)) = _
      simp [Json.dicts, List.filterMap_map]
    · rw [List.forall₂_map_left_iff, List.forall₂_same]
      intro flow hflow
      obtain ⟨raw, -, hraw⟩ := exists_of_forall₂ hflows hflow
      exact hraw.asdict

/-! ### What is written is plain -/

section Plain

theorem Json.Plain.of_lookup {d : Dict} (hd : (Json.obj d).Plain) {k : String} {v : Json}
    (h : d.lookup k = some v) : v.Plain := by
  cases hd with
  | obj _ hvalues =>
    obtain ⟨d₁, d₂, rfl, -⟩ := List.lookup_eq_some_iff.mp h
    exact hvalues (k, v) (by simp)

theorem Json.Plain.getD {d : Dict} (hd : (Json.obj d).Plain) (k : String) {v : Json}
    (hv : v.Plain) : (d.getD k v).Plain := by
  rw [Dict.getD]
  cases hlookup : d.lookup k with
  | none => exact hv
  | some w => exact hd.of_lookup hlookup

theorem Json.Plain.get {d : Dict} (hd : (Json.obj d).Plain) (k : String) : (d.get k).Plain :=
  hd.getD k .null

theorem plain_obj_nil : (Json.obj []).Plain := .obj List.nodup_nil fun _ h => nomatch h

theorem AgentOrganizationConfig.plain_asdict {d : Dict} (hd : (Json.obj d).Plain) :
    (Json.obj (AgentOrganizationConfig.construct d).asdict).Plain := by
  refine .obj (by simp [AgentOrganizationConfig.asdict]) ?_
  simp only [AgentOrganizationConfig.asdict, AgentOrganizationConfig.construct,
    List.forall_mem_cons, List.not_mem_nil, false_implies, implies_true, and_true]
  exact ⟨hd.getD _ (.str _), hd.getD _ (.str _), hd.getD _ (.str _), hd.getD _ (.str _)⟩

theorem InternalX5cConfig.plain_asdict {d : Dict} (hd : (Json.obj d).Plain) :
    (Json.obj (InternalX5cConfig.construct d).asdict).Plain := by
  refine .obj (by simp [InternalX5cConfig.asdict]) ?_
  simp only [InternalX5cConfig.asdict, InternalX5cConfig.construct,
    List.forall_mem_cons, List.not_mem_nil, false_implies, implies_true, and_true]
  exact ⟨hd.getD _ (.str _), hd.getD _ (.str _), hd.getD _ (.str _), hd.getD _ (.str _),
    hd.getD _ (.str _), hd.getD _ (.str _), hd.getD _ (.arr fun _ h => nomatch h)⟩

theorem DnsProviderConfig.plain_asdict {p : DnsProvidersEnum} {d : Dict} {c : DnsProviderConfig}
    (hd : (Json.obj d).Plain) (h : DnsProviderConfig.construct p d = .ok c) :
    (Json.obj c.asdict).Plain := by
  rw [DnsProviderConfig.construct] at h
  split at h
  · next domain hdomain =>
    cases h
    have hstr : ∀ k, (d.getD k (.str "")).Plain := fun k => hd.getD k (.str _)
    cases p
    all_goals
      refine .obj (by simp [DnsProviderConfig.asdict, ProviderFields.asdict,
        ProviderFields.construct]) ?_
      simp only [DnsProviderConfig.asdict, ProviderFields.asdict, ProviderFields.construct,
        List.cons_append, List.nil_append, List.forall_mem_cons, List.not_mem_nil,
        false_implies, implies_true, and_true]
      exact ⟨hd.of_lookup hdomain, hd.getD _ (.int _), hd.getD _ (.int _), hstr _, hstr _⟩
  · cases h

/-- What a falsy `v or {}` leaves is plain too. -/
theorem plain_of_orEmptyDict {v : Json} (hv : v.Plain) {d : Dict} (h : v.orEmptyDict = .ok d) :
    (Json.obj d).Plain := by
  simp only [Json.orEmptyDict] at h
  split at h
  · split at h
    · cases h
      exact hv
    · cases h
  · cases h
    exact plain_obj_nil

theorem ExternalAcmeConfig.DecodedFrom.plain_asdict {c : ExternalAcmeConfig} {d : Dict}
    (hd : (Json.obj d).Plain) (h : c.DecodedFrom d) : (Json.obj c.asdict).Plain := by
  obtain ⟨hacme, hdomains, hdns, hdir⟩ := h
  obtain ⟨acme, domains, provider, config, dir⟩ := c
  have hacme' : (acme.asJson fun p => .str p.value).Plain := by
    cases acme with
    | of p => exact .str _
    | raw v => exact hd.of_lookup hacme.1
  have hdns' : (provider.asJson fun p => .str p.value).Plain ∧
      (config.asJson fun pc => .obj pc.asdict).Plain := by
    cases provider with
    | of p =>
      cases config with
      | raw w => exact hdns.elim
      | of pc =>
        obtain ⟨-, -, d', hd', hpc⟩ := hdns
        exact ⟨.str _, DnsProviderConfig.plain_asdict (plain_of_orEmptyDict (hd.get _) hd') hpc⟩
    | raw v =>
      cases config with
      | of pc => exact hdns.elim
      | raw w =>
        obtain ⟨-, rfl, rfl⟩ := hdns
        exact ⟨hd.get _, hd.get _⟩
  have hdomains' : domains.Plain := by
    obtain rfl : d.getD "domains" (.arr []) = domains := hdomains
    exact hd.getD _ (.arr fun _ h => nomatch h)
  have hdir' : dir.Plain := by
    obtain rfl : d.getD "account_dir" (.str _) = dir := hdir
    exact hd.getD _ (.str _)
  refine .obj (by simp [ExternalAcmeConfig.asdict]) ?_
  simp only [ExternalAcmeConfig.asdict, List.forall_mem_cons, List.not_mem_nil, false_implies,
    implies_true, and_true]
  exact ⟨hacme', hdomains', hdns'.1, hdns'.2, hdir'⟩

theorem FlowConfig.DecodedFrom.plain_asdict {flow : FlowConfig} {raw : Dict}
    (hraw : (Json.obj raw).Plain) (h : flow.DecodedFrom raw) : (Json.obj flow.asdict).Plain := by
  obtain ⟨d, hd, hbody⟩ := h.body
  have hconfig : (Json.obj flow.config.asdict).Plain := by
    have hplain := plain_of_orEmptyDict (hraw.get "config") hd
    cases ht : flow.type with
    | internal =>
      cases hc : flow.config with
      | internal c =>
        rw [ht, hc] at hbody
        obtain rfl : InternalX5cConfig.construct d = c := hbody
        exact InternalX5cConfig.plain_asdict hplain
      | external c => rw [ht, hc] at hbody; exact hbody.elim
    | external =>
      cases hc : flow.config with
      | internal c => rw [ht, hc] at hbody; exact hbody.elim
      | external c =>
        rw [ht, hc] at hbody
        have hbody : c.DecodedFrom d := hbody
        exact hbody.plain_asdict hplain
  refine .obj (by simp [FlowConfig.asdict]) ?_
  simp only [FlowConfig.asdict, List.forall_mem_cons, List.not_mem_nil, false_implies,
    implies_true, and_true]
  exact ⟨.str _, .str _, hraw.of_lookup h.name, hraw.of_lookup h.certOutputDir,
    hraw.of_lookup h.keyOutputDir, hconfig, h.postRenewalScript ▸ hraw.get _,
    h.scheduleSlot ▸ hraw.get _, h.renewBeforeDays ▸ hraw.get _⟩

/-- The dictionaries in a plain value are plain. -/
theorem plain_of_mem_dicts {v : Json} (hv : v.Plain) {raws : List Dict} (h : v.dicts = .ok raws)
    {raw : Dict} (hraw : raw ∈ raws) : (Json.obj raw).Plain := by
  simp only [Json.dicts] at h
  split at h
  · next xs =>
    cases h
    obtain ⟨x, hx, hxraw⟩ := List.mem_filterMap.mp hraw
    cases hv with
    | arr hxs =>
      split at hxraw
      · cases hxraw
        exact hxs _ hx
      · cases hxraw
  · cases h; cases hraw
  · cases h; cases hraw
  · cases h

/-- **No floats, and distinct keys**, in what is written of a decoded configuration. -/
theorem AgentConfig.DecodedFrom.plain_asdict {hostname : String} {data : Dict} {c : AgentConfig}
    (hdata : (Json.obj data).Plain) (h : c.DecodedFrom hostname data) :
    (Json.obj c.asdict).Plain := by
  obtain ⟨hnode, horg, raws, hraws, hflows⟩ := h
  have hnode' : c.nodeName.Plain := by
    rw [← hnode]
    split
    · exact hdata.get _
    · exact .str _
  have horg' : (match c.org with
      | some org => Json.obj org.asdict
      | none => .null).Plain := by
    rw [← horg]
    cases hv : data.get "org" with
    | obj org => exact AgentOrganizationConfig.plain_asdict (hv ▸ hdata.get "org")
    | null => exact .null
    | bool b => exact .null
    | int n => exact .null
    | float x => exact .null
    | str s => exact .null
    | arr xs => exact .null
  have hflows' : (Json.arr (c.flows.map fun flow => .obj flow.asdict)).Plain := by
    refine .arr fun v hv => ?_
    obtain ⟨flow, hflow, rfl⟩ := List.mem_map.mp hv
    obtain ⟨raw, hraw, hdecoded⟩ := exists_of_forall₂ hflows hflow
    have hplain : (data.getD "flows" (.arr [])).Plain := hdata.getD _ (.arr fun _ h => nomatch h)
    exact hdecoded.plain_asdict (plain_of_mem_dicts hplain hraws hraw)
  refine .obj (by simp [AgentConfig.asdict]) ?_
  simp only [AgentConfig.asdict, List.forall_mem_cons, List.not_mem_nil, false_implies,
    implies_true, and_true]
  exact ⟨hnode', horg', hflows'⟩

end Plain

/-! ### The round trip -/

theorem loadPersisted_of_readText {py : Interpreter} {hostname : String} {content : Bytes}
    {s : String} (h : readText content = .ok (.ofString s)) :
    loadPersisted py hostname content = AgentConfig.loads py hostname s := by
  rw [loadPersisted, h]
  show AgentConfig.loads py hostname (String.ofList ((Text.ofString s).scalars?.getD [])) = _
  rw [Text.ofString, scalars?_map_scalar, Option.getD_some, String.ofList_toList]

theorem AgentConfig.dumps_eq_ok {py : Interpreter} {c : AgentConfig} {text : String} :
    c.dumps py = .ok text ↔ (Json.obj c.asdict).depth ≤ py.dumpsDepth ∧
      (Json.obj c.asdict).digits ≤ maxStrDigits ∧ c.text py = text :=
  Json.dumps_eq_ok

theorem AgentConfig.loads_dumps_of_plain {py : Interpreter} {hostname : String} {c : AgentConfig}
    (hplain : (Json.obj c.asdict).Plain) (hback : c.DecodedFrom hostname c.asdict) {text : String}
    (h : c.dumps py = .ok text) : AgentConfig.loads py hostname text = .ok c := by
  obtain ⟨hdepth, hdigits, rfl⟩ := AgentConfig.dumps_eq_ok.mp h
  have hloads : Json.loads py (c.text py) = .ok (.obj c.asdict) :=
    Json.loads_text hplain (hdepth.trans py.dumps_le_loads) hdigits
  rw [AgentConfig.loads, hloads]
  exact AgentConfig.fromDict_eq_ok.mpr hback

/-- What is written of a configuration that was decoded gives it back. -/
theorem AgentConfig.loads_of_dumps {py : Interpreter} {hostname : String} (hhost : hostname ≠ "")
    {data : Dict} (hdata : (Json.obj data).Plain) {c : AgentConfig}
    (h : AgentConfig.fromDict hostname (.obj data) = .ok c) {text : String}
    (htext : c.dumps py = .ok text) :
    AgentConfig.loads py hostname text = .ok c ∧
      ∀ b, encode (.ofString text) = .ok b → loadPersisted py hostname b = .ok c := by
  have hdecoded := AgentConfig.fromDict_eq_ok.mp h
  have hplain := hdecoded.plain_asdict hdata
  have hloads : AgentConfig.loads py hostname text = .ok c :=
    AgentConfig.loads_dumps_of_plain hplain (hdecoded.asdict hhost) htext
  refine ⟨hloads, fun b hb => ?_⟩
  obtain ⟨-, -, rfl⟩ := AgentConfig.dumps_eq_ok.mp htext
  have hread : readText b = .ok (.ofString (c.text py)) := Json.readText_text py hplain hb
  exact (loadPersisted_of_readText hread).trans hloads

/-- **The round trip.** A configuration that was decoded is written and read back as it is, through
`loads` or through the file that `status` reads, and so is written the same the next time. It is
written just if it is not too deep, and no integer in it too long. -/
theorem AgentConfig.loads_dumps (py : Interpreter) (hostname : String) (hhost : hostname ≠ "")
    (data : Dict) (hdata : (Json.obj data).Plain) (c : AgentConfig)
    (h : AgentConfig.fromDict hostname (.obj data) = .ok c) :
    (∀ text, c.dumps py = .ok text →
      AgentConfig.loads py hostname text = .ok c ∧
        (AgentConfig.loads py hostname text >>= AgentConfig.dumps py) = .ok text ∧
        ∀ b, encode (.ofString text) = .ok b → loadPersisted py hostname b = .ok c) ∧
      ((∃ text, c.dumps py = .ok text) ↔ (Json.obj c.asdict).depth ≤ py.dumpsDepth ∧
        (Json.obj c.asdict).digits ≤ maxStrDigits) := by
  refine ⟨fun text htext => ?_, ?_⟩
  · obtain ⟨hloads, hpersisted⟩ := AgentConfig.loads_of_dumps hhost hdata h htext
    exact ⟨hloads, by rw [hloads]; exact htext, hpersisted⟩
  · simp only [AgentConfig.dumps_eq_ok, exists_and_left, exists_eq', and_true]

theorem plain_externalRaw {body : Dict} (hbody : (Json.obj body).Plain) :
    (Json.obj (externalRaw body)).Plain := by
  have hflow : (Json.obj [("type", .str "external"), ("name", .str "ext"),
      ("cert_output_dir", .str "/c"), ("key_output_dir", .str "/k"),
      ("config", .obj body)]).Plain :=
    .obj (by simp) (by simp [hbody, Json.Plain.str])
  refine .obj (by simp [externalRaw]) ?_
  rw [externalRaw, List.forall_mem_cons, List.forall_mem_singleton]
  exact ⟨.str _, .arr fun v hv => by rwa [List.mem_singleton.mp hv]⟩

/-- An interpreter for payloads without floats. `asdict` takes two frames of a thousand for a list. -/
def demoPython : Interpreter where
  repr _ := []
  parse _ := .nan
  dumpsDepth := 490
  loadsDepth := 990
  dumps_le_loads := by decide

theorem loads_dumps_demo :
    ∃ text, cloudflareConfig.dumps demoPython = .ok text ∧
      AgentConfig.loads demoPython "localhost" text = .ok cloudflareConfig := by
  have hprovider : (Json.obj [("domain", .str "example.com"), ("api_token", .str "token")]).Plain :=
    .obj (by decide) (by simp [Json.Plain.str])
  have hplain : (Json.obj cloudflareRaw).Plain :=
    plain_externalRaw (.obj (by decide) (by simp [Json.Plain.str, hprovider]))
  obtain ⟨hback, hwritten⟩ := AgentConfig.loads_dumps demoPython "localhost" (by decide)
    cloudflareRaw hplain cloudflareConfig (by decide)
  obtain ⟨text, htext⟩ := hwritten.mpr (by decide)
  exact ⟨text, htext, (hback text htext).1⟩

/-! ### A configuration that cannot be written -/

/-- A list in a list, and so on. -/
def nestedLists : ℕ → Json
  | 0 => .str "app.example.com"
  | n + 1 => .arr [nestedLists n]

theorem plain_nestedLists (n : ℕ) : (nestedLists n).Plain := by
  induction n with
  | zero => exact .str _
  | succ n ih => exact .arr fun v hv => List.mem_singleton.mp hv ▸ ih

theorem le_depth_nestedLists (n : ℕ) : n ≤ (nestedLists n).depth := by
  induction n with
  | zero => exact Nat.zero_le _
  | succ n ih => exact ih.trans_lt (Json.depth_lt_of_mem_arr (List.mem_singleton.mpr rfl))

/-- A flow whose domains are nested, as it is decoded. -/
def nestedConfig (n : ℕ) : AgentConfig :=
  externalConfig ⟨.of .letsencrypt, nestedLists n, .raw .null, .raw .null,
    .str "/var/lib/nextep-agent/acme/accounts"⟩

theorem fromDict_nested (n : ℕ) :
    AgentConfig.fromDict "localhost" (.obj (externalRaw [("domains", nestedLists n)])) =
      .ok (nestedConfig n) := rfl

/-- A configuration is deeper than the body of a flow. -/
theorem depth_config_lt {c : AgentConfig} {flow : FlowConfig} (hflow : flow ∈ c.flows) :
    (Json.obj flow.config.asdict).depth < (Json.obj c.asdict).depth :=
  calc (Json.obj flow.config.asdict).depth
      < (Json.obj flow.asdict).depth :=
        Json.depth_lt_of_mem_obj
          (by simp [FlowConfig.asdict] : ("config", Json.obj flow.config.asdict) ∈ flow.asdict)
    _ < (Json.arr (c.flows.map fun flow => .obj flow.asdict)).depth :=
        Json.depth_lt_of_mem_arr (List.mem_map_of_mem hflow)
    _ < (Json.obj c.asdict).depth :=
        Json.depth_lt_of_mem_obj (by simp [AgentConfig.asdict] : ("flows", _) ∈ c.asdict)

theorem le_depth_nestedConfig (n : ℕ) : n ≤ (Json.obj (nestedConfig n).asdict).depth := by
  obtain ⟨c, hc, hdomains⟩ : ∃ c : ExternalAcmeConfig,
      nestedConfig n = externalConfig c ∧ c.domains = nestedLists n := ⟨_, rfl, rfl⟩
  have hbody : (nestedLists n).depth < (Json.obj c.asdict).depth :=
    Json.depth_lt_of_mem_obj (hdomains ▸ by simp [ExternalAcmeConfig.asdict] :
      ("domains", nestedLists n) ∈ c.asdict)
  have hconfig := depth_config_lt (c := externalConfig c) (List.mem_singleton.mpr rfl)
  exact hc ▸ (le_depth_nestedLists n).trans (hbody.trans hconfig).le

/-- **Without a limit** on the depth of what is decoded, the round trip need not get under way. -/
theorem dumps_gives_up :
    ¬ ∀ (py : Interpreter) (hostname : String) (data : Dict) (c : AgentConfig), hostname ≠ "" →
      (Json.obj data).Plain → AgentConfig.fromDict hostname (.obj data) = .ok c →
      (c.dumps py >>= AgentConfig.loads py hostname) = .ok c := by
  intro h
  have hplain : (Json.obj (externalRaw [("domains", nestedLists 600)])).Plain :=
    plain_externalRaw (.obj (by simp) (by simp [plain_nestedLists]))
  have hback := h demoPython "localhost" _ (nestedConfig 600) (by decide) hplain (fromDict_nested 600)
  have hdeep : demoPython.dumpsDepth < (Json.obj (nestedConfig 600).asdict).depth :=
    lt_of_lt_of_le (by decide) (le_depth_nestedConfig 600)
  rw [AgentConfig.dumps, Json.dumps, if_pos hdeep] at hback
  cases hback

end NextepAgent
