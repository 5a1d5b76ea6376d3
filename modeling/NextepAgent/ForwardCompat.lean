import NextepAgent.Decoding

/-!
# Keys the agent does not know

A newer server sends keys that this agent has no field for. `Widened known R d d'` says that `d'` is
`d` with such entries added, and that what is under the keys of `d` has been widened in turn. It is
instantiated at the five levels of a payload: the envelope, the organization, a flow, its body, and
the provider configuration of an external body.

## Where the entries go

At four levels the decoder looks up the keys it knows, and drops the others. The fifth is looked up
only behind a truthy `dns_provider`. Behind a falsy one the dictionary is stored as it came, with
the entries that were added. `AgentConfig.withRaw` puts it there; it is the whole difference between
the two results.

Without a discriminator there is no class, and no key is known. So the entries that may be added to
such an object are arbitrary.

## Main definitions

* `Widened`, `PayloadWidened` — entries added at one level, and at all of them
* `KeepsUntyped` — the payloads agree on what is stored as it came

## Main results

* `Widened.rel_lookup` — known keys do not see the new entries
* `AgentConfig.fromDict_widened` — the result for the wider payload, out of that for the other
* `AgentConfig.fromDict_widened_iff` — when the two are equal
-/

namespace NextepAgent

/-! ### Entries under unknown keys -/

/-- `d'` is `d` with entries added under keys that are not `known`, and with each value `v` under a
key `k` of `d` replaced by one that is `R k`-related to it. -/
inductive Widened (known : List String) (R : String → Json → Json → Prop) : Dict → Dict → Prop
  | nil : Widened known R [] []
  | keep {k : String} {v v' : Json} {d d' : Dict} (hv : R k v v') (h : Widened known R d d') :
    Widened known R ((k, v) :: d) ((k, v') :: d')
  | add {k : String} {v : Json} {d d' : Dict} (hk : k ∉ known) (h : Widened known R d d') :
    Widened known R d ((k, v) :: d')

section Widened

variable {known : List String} {R : String → Json → Json → Prop} {d d' : Dict} {k : String}

/-- **Known keys** do not see the new entries. -/
theorem Widened.rel_lookup (h : Widened known R d d') (hk : k ∈ known) :
    d.lookup k = none ∧ d'.lookup k = none ∨
      ∃ v v', d.lookup k = some v ∧ d'.lookup k = some v' ∧ R k v v' := by
  induction h with
  | nil => exact .inl ⟨rfl, rfl⟩
  | @keep l v v' d d' hv _ ih =>
    rw [List.lookup_cons, List.lookup_cons]
    by_cases hkl : k = l
    · subst hkl
      rw [beq_self_eq_true]
      exact .inr ⟨v, v', rfl, rfl, hv⟩
    · rw [beq_false_of_ne hkl]
      exact ih
  | @add l v d d' hl _ ih =>
    have hkl : k ≠ l := fun h => hl (h ▸ hk)
    rw [List.lookup_cons, beq_false_of_ne hkl]
    exact ih

theorem Widened.lookup_eq (h : Widened known R d d') (hk : k ∈ known)
    (hR : ∀ v v', R k v v' → v = v') : d'.lookup k = d.lookup k := by
  rcases h.rel_lookup hk with ⟨hd, hd'⟩ | ⟨v, v', hd, hd', hv⟩
  · rw [hd, hd']
  · rw [hd, hd', hR _ _ hv]

theorem Widened.getD_eq (h : Widened known R d d') (hk : k ∈ known)
    (hR : ∀ v v', R k v v' → v = v') (v : Json) : d'.getD k v = d.getD k v := by
  rw [Dict.getD, Dict.getD, h.lookup_eq hk hR]

/-- What is under a known key, or the same default. -/
theorem Widened.rel_getD (h : Widened known R d d') (hk : k ∈ known) {v : Json} (hv : R k v v) :
    R k (d.getD k v) (d'.getD k v) := by
  rw [Dict.getD, Dict.getD]
  rcases h.rel_lookup hk with ⟨hd, hd'⟩ | ⟨w, w', hd, hd', hw⟩
  · rw [hd, hd']
    exact hv
  · rw [hd, hd']
    exact hw

end Widened

/-- An object is widened, and any other value stays. -/
def WidenedObj (W : Dict → Dict → Prop) : Json → Json → Prop
  | .obj d, .obj d' => W d d'
  | v, v' => v = v'

theorem orEmptyDict_obj (d : Dict) : (Json.obj d).orEmptyDict = .ok d := by
  cases d <;> rfl

/-- `v or {}` of an object and of a wider one. -/
theorem WidenedObj.orEmptyDict {W : Dict → Dict → Prop} (hnil : W [] []) {v v' : Json}
    (h : WidenedObj W v v') :
    (∃ e, v.orEmptyDict = .error e ∧ v'.orEmptyDict = .error e) ∨
      ∃ d d', v.orEmptyDict = .ok d ∧ v'.orEmptyDict = .ok d' ∧ W d d' := by
  have hsame : v = v' → (∀ d, v ≠ .obj d) →
      (∃ e, v.orEmptyDict = .error e ∧ v'.orEmptyDict = .error e) ∨
        ∃ d d', v.orEmptyDict = .ok d ∧ v'.orEmptyDict = .ok d' ∧ W d d' := by
    rintro rfl hobj
    unfold Json.orEmptyDict
    split
    · split
      · exact absurd rfl (hobj _)
      · exact .inl ⟨_, rfl, rfl⟩
    · exact .inr ⟨[], [], rfl, rfl, hnil⟩
  simp only [WidenedObj] at h
  split at h
  · next d d' => exact .inr ⟨d, d', orEmptyDict_obj d, orEmptyDict_obj d', h⟩
  · next hnot => exact hsame h fun d hd => hnot d d hd (h ▸ hd)

/-! ### The five levels -/

/-- The field names of `AgentConfig`. -/
def AgentConfig.fields : List String := ["node_name", "org", "flows"]

/-- The field names of `AgentOrganizationConfig`. -/
def AgentOrganizationConfig.fields : List String :=
  ["spog_url", "smallstep_root_pem", "acme_directory_url", "acme_admin_email"]

/-- The field names of `FlowConfig`. -/
def FlowConfig.fields : List String :=
  ["type", "method", "name", "cert_output_dir", "key_output_dir", "config", "post_renewal_script",
    "schedule_slot", "renew_before_days"]

/-- The field names of `InternalX5cConfig`. -/
def InternalX5cConfig.fields : List String :=
  ["ca_url", "provisioner", "x5c_cert_path", "x5c_key_path", "root_bundle_path", "hostname",
    "permitted_sans"]

/-- The field names of `ExternalAcmeConfig`. -/
def ExternalAcmeConfig.fields : List String :=
  ["acme_provider", "domains", "dns_provider", "dns_provider_config", "account_dir"]

/-- The field names of `_PROVIDER_CONFIG_CLASSES[provider]`. -/
def DnsProviderConfig.fields (provider : DnsProvidersEnum) : List String :=
  ["domain", "propagation_delay", "ttl"] ++
    match provider with
    | .rfc2136 => ["server", "tsig_key"]
    | .googleCloudDns => ["project_id", "service_account_info"]
    | .cloudflare => ["api_token", "zone_id"]

def OrgWidened : Dict → Dict → Prop := Widened AgentOrganizationConfig.fields fun _ => Eq

/-- A provider configuration, next to this `dns_provider`. -/
def ProviderWidened (provider : Json) : Dict → Dict → Prop :=
  match DnsProvidersEnum.ofJson provider with
  | .ok p => Widened (DnsProviderConfig.fields p) fun _ => Eq
  | .error _ => Widened [] fun _ => Eq

def InternalWidened : Dict → Dict → Prop := Widened InternalX5cConfig.fields fun _ => Eq

def ExternalWidened (d : Dict) : Dict → Dict → Prop :=
  Widened ExternalAcmeConfig.fields fun k =>
    if k = "dns_provider_config" then WidenedObj (ProviderWidened (d.get "dns_provider")) else Eq

/-- The body of a flow of this `type`. -/
def BodyWidened (type : Json) (d d' : Dict) : Prop :=
  match FlowType.ofJson type with
  | .ok .internal => InternalWidened d d'
  | .ok .external => ExternalWidened d d d'
  | .error _ => Widened [] (fun _ => Eq) d d'

def FlowWidened (raw : Dict) : Dict → Dict → Prop :=
  Widened FlowConfig.fields fun k =>
    if k = "config" then WidenedObj (BodyWidened (raw.get "type")) else Eq

def FlowsWidened : Json → Json → Prop
  | .arr xs, .arr xs' => List.Forall₂ (WidenedObj fun raw raw' => FlowWidened raw raw raw') xs xs'
  | v, v' => v = v'

def EnvelopeWidened : Dict → Dict → Prop :=
  Widened AgentConfig.fields fun k =>
    if k = "org" then WidenedObj OrgWidened else if k = "flows" then FlowsWidened else Eq

/-- **Entries under unknown keys**, at any of the five levels of a payload. -/
def PayloadWidened : Json → Json → Prop := WidenedObj EnvelopeWidened

/-! ### Decoding the wider object -/

theorem AgentOrganizationConfig.construct_widened {d d' : Dict} (h : OrgWidened d d') :
    AgentOrganizationConfig.construct d' = AgentOrganizationConfig.construct d := by
  have hget : ∀ k ∈ AgentOrganizationConfig.fields, ∀ v, d'.getD k v = d.getD k v :=
    fun k hk v => h.getD_eq hk (fun _ _ => id) v
  simp only [AgentOrganizationConfig.fields, List.forall_mem_cons, List.not_mem_nil,
    false_implies, implies_true, and_true] at hget
  obtain ⟨hspog, hroot, hacme, hadmin⟩ := hget
  simp only [AgentOrganizationConfig.construct, hspog, hroot, hacme, hadmin]

theorem InternalX5cConfig.construct_widened {d d' : Dict} (h : InternalWidened d d') :
    InternalX5cConfig.construct d' = InternalX5cConfig.construct d := by
  have hget : ∀ k ∈ InternalX5cConfig.fields, ∀ v, d'.getD k v = d.getD k v :=
    fun k hk v => h.getD_eq hk (fun _ _ => id) v
  simp only [InternalX5cConfig.fields, List.forall_mem_cons, List.not_mem_nil,
    false_implies, implies_true, and_true] at hget
  obtain ⟨hca, hprovisioner, hcert, hkey, hroot, hhost, hsans⟩ := hget
  simp only [InternalX5cConfig.construct, hca, hprovisioner, hcert, hkey, hroot, hhost, hsans]

theorem DnsProviderConfig.construct_widened {p : DnsProvidersEnum} {d d' : Dict}
    (h : Widened (DnsProviderConfig.fields p) (fun _ => Eq) d d') :
    DnsProviderConfig.construct p d' = DnsProviderConfig.construct p d := by
  have hdomain : d'.lookup "domain" = d.lookup "domain" :=
    h.lookup_eq (by simp [DnsProviderConfig.fields]) fun _ _ => id
  have hget : ∀ k ∈ DnsProviderConfig.fields p, ∀ v, d'.getD k v = d.getD k v :=
    fun k hk v => h.getD_eq hk (fun _ _ => id) v
  have hspecific : ProviderFields.construct d' p = ProviderFields.construct d p := by
    cases p
    all_goals
      simp only [DnsProviderConfig.fields, List.cons_append, List.nil_append,
        List.forall_mem_cons, List.not_mem_nil, false_implies, implies_true, and_true] at hget
      obtain ⟨-, -, -, hfirst, hsecond⟩ := hget
      simp only [ProviderFields.construct, hfirst, hsecond]
  have hdelay := hget "propagation_delay" (by simp [DnsProviderConfig.fields])
  have httl := hget "ttl" (by simp [DnsProviderConfig.fields])
  simp only [DnsProviderConfig.construct, hdomain, hspecific, hdelay, httl]

/-- What a truthy discriminator makes of the provider configuration. -/
theorem construct_of_providerWidened {provider v v' : Json} {p : DnsProvidersEnum}
    (hp : DnsProvidersEnum.ofJson provider = .ok p)
    (h : WidenedObj (ProviderWidened provider) v v') :
    (v'.orEmptyDict >>= DnsProviderConfig.construct p) =
      (v.orEmptyDict >>= DnsProviderConfig.construct p) := by
  have hnil : ProviderWidened provider [] [] := by
    rw [ProviderWidened, hp]
    exact .nil
  rcases h.orEmptyDict hnil with ⟨e, hv, hv'⟩ | ⟨d, d', hv, hv', hd⟩
  · rw [hv, hv']
  · rw [ProviderWidened, hp] at hd
    rw [hv, hv']
    exact DnsProviderConfig.construct_widened hd

/-- What is stored as it came. -/
def ExternalAcmeConfig.withRaw (raw : Dict) (c : ExternalAcmeConfig) : ExternalAcmeConfig :=
  if (raw.get "dns_provider").truthy then c
  else { c with dnsProviderConfig := .raw (raw.get "dns_provider_config") }

theorem ExternalWidened.get_dnsProvider {d d' : Dict} (h : ExternalWidened d d d') :
    d'.get "dns_provider" = d.get "dns_provider" :=
  h.getD_eq (by simp [ExternalAcmeConfig.fields]) (by simp) .null

/-- `decodeDns`, with the two steps of the provider configuration in one. -/
theorem decodeDns_eq (raw : Dict) :
    decodeDns raw =
      if (raw.get "dns_provider").truthy then do
        let p ← DnsProvidersEnum.ofJson (raw.get "dns_provider")
        (fun pc => (Decoded.of p, Decoded.of pc)) <$>
          ((raw.get "dns_provider_config").orEmptyDict >>= DnsProviderConfig.construct p)
      else .ok (.raw (raw.get "dns_provider"), .raw (raw.get "dns_provider_config")) := by
  rw [decodeDns]
  split
  · cases DnsProvidersEnum.ofJson (raw.get "dns_provider") with
    | error e => rfl
    | ok p =>
      cases (raw.get "dns_provider_config").orEmptyDict with
      | error e => rfl
      | ok d =>
        simp only [bind, Except.bind]
        cases DnsProviderConfig.construct p d <;> rfl
  · rfl

theorem decodeDns_widened {d d' : Dict} (h : ExternalWidened d d d') :
    decodeDns d' = (fun dns => (dns.1, if (d'.get "dns_provider").truthy then dns.2
      else .raw (d'.get "dns_provider_config"))) <$> decodeDns d := by
  have hconfig : WidenedObj (ProviderWidened (d.get "dns_provider"))
      (d.get "dns_provider_config") (d'.get "dns_provider_config") := by
    have hrel := h.rel_getD (k := "dns_provider_config") (v := .null)
      (by simp [ExternalAcmeConfig.fields]) (by simp [WidenedObj])
    rwa [if_pos rfl] at hrel
  rw [decodeDns_eq, decodeDns_eq, h.get_dnsProvider]
  cases htruthy : (d.get "dns_provider").truthy with
  | false => rfl
  | true =>
    simp only [if_true]
    cases hp : DnsProvidersEnum.ofJson (d.get "dns_provider") with
    | error e => rfl
    | ok p =>
      simp only [bind, Except.bind]
      have hconstruct := construct_of_providerWidened hp hconfig
      simp only [bind, Except.bind] at hconstruct
      rw [hconstruct]
      exact (id_map _).symm

theorem deserializeExternal_widened {d d' : Dict} (h : ExternalWidened d d d') :
    deserializeExternal d' = ExternalAcmeConfig.withRaw d' <$> deserializeExternal d := by
  have hacme : d'.lookup "acme_provider" = d.lookup "acme_provider" :=
    h.lookup_eq (by simp [ExternalAcmeConfig.fields]) (by simp)
  have hdomains : ∀ v, d'.getD "domains" v = d.getD "domains" v :=
    h.getD_eq (by simp [ExternalAcmeConfig.fields]) (by simp)
  have hdir : ∀ v, d'.getD "account_dir" v = d.getD "account_dir" v :=
    h.getD_eq (by simp [ExternalAcmeConfig.fields]) (by simp)
  rw [deserializeExternal_eq, deserializeExternal_eq, decodeDns_widened h, decodeAcme, hacme,
    hdomains, hdir, ← decodeAcme]
  cases decodeAcme d with
  | error e => rfl
  | ok acme =>
    cases decodeDns d with
    | error e => rfl
    | ok dns =>
      simp only [bind, Except.bind, pure, Except.pure, Functor.map, Except.map,
        ExternalAcmeConfig.withRaw]
      split <;> rfl

/-- What is stored as it came, in the body of a flow. -/
def FlowBody.withRaw (raw : Dict) : FlowBody → FlowBody
  | .internal c => .internal c
  | .external c => .external (c.withRaw raw)

theorem decodeBody_widened {type : Json} {t : FlowType} (ht : FlowType.ofJson type = .ok t)
    {d d' : Dict} (h : BodyWidened type d d') :
    decodeBody d' t = FlowBody.withRaw d' <$> decodeBody d t := by
  rw [BodyWidened, ht] at h
  cases t with
  | internal =>
    have hconstruct := InternalX5cConfig.construct_widened h
    rw [decodeBody, decodeBody, hconstruct]
    rfl
  | external =>
    have hdecode := deserializeExternal_widened h
    rw [decodeBody, decodeBody, hdecode]
    cases deserializeExternal d <;> rfl

/-- `raw.get("config") or {}`, where it is a dictionary. -/
def flowBody (raw : Dict) : Dict := (raw.get "config").orEmptyDict.toOption.getD []

/-- What is stored as it came, in a flow. -/
def FlowConfig.withRaw (raw : Dict) (flow : FlowConfig) : FlowConfig :=
  { flow with config := flow.config.withRaw (flowBody raw) }

theorem FlowWidened.rel_config {raw raw' : Dict} (h : FlowWidened raw raw raw') :
    WidenedObj (BodyWidened (raw.get "type")) (raw.get "config") (raw'.get "config") := by
  have hrel := h.rel_getD (k := "config") (v := .null) (by simp [FlowConfig.fields])
    (by simp [WidenedObj])
  rwa [if_pos rfl] at hrel

theorem BodyWidened.nil (type : Json) : BodyWidened type [] [] := by
  rw [BodyWidened]
  split <;> exact .nil

theorem deserializeFlow_widened {raw raw' : Dict} (h : FlowWidened raw raw raw') :
    deserializeFlow raw' = FlowConfig.withRaw raw' <$> deserializeFlow raw := by
  have hlookup : ∀ k ∈ FlowConfig.fields, k ≠ "config" → raw'.lookup k = raw.lookup k :=
    fun k hk hne => h.lookup_eq hk (by simp [hne])
  have hitem : ∀ k ∈ FlowConfig.fields, k ≠ "config" → raw'.item k = raw.item k :=
    fun k hk hne => by rw [Dict.item, Dict.item, hlookup k hk hne]
  have hget : ∀ k ∈ FlowConfig.fields, k ≠ "config" → raw'.get k = raw.get k :=
    fun k hk hne => by rw [Dict.get, Dict.get, Dict.getD, Dict.getD, hlookup k hk hne]
  have hconfig := h.rel_config
  have hmethod : decodeMethod raw' = decodeMethod raw := by
    unfold decodeMethod
    rw [hget "method" (by simp [FlowConfig.fields]) (by decide)]
  rw [deserializeFlow_eq, deserializeFlow_eq, hmethod,
    hitem "type" (by simp [FlowConfig.fields]) (by decide),
    hitem "name" (by simp [FlowConfig.fields]) (by decide),
    hitem "cert_output_dir" (by simp [FlowConfig.fields]) (by decide),
    hitem "key_output_dir" (by simp [FlowConfig.fields]) (by decide),
    hget "post_renewal_script" (by simp [FlowConfig.fields]) (by decide),
    hget "schedule_slot" (by simp [FlowConfig.fields]) (by decide),
    hget "renew_before_days" (by simp [FlowConfig.fields]) (by decide)]
  cases htype : raw.item "type" with
  | error e => rfl
  | ok v =>
    rw [Dict.get_of_lookup (Dict.item_eq_ok.mp htype)] at hconfig
    cases ht : FlowType.ofJson v with
    | error e => simp only [bind, Except.bind, ht]; rfl
    | ok t =>
      simp only [bind, Except.bind, ht]
      cases decodeMethod raw t with
      | error e => rfl
      | ok m =>
        rcases hconfig.orEmptyDict (BodyWidened.nil v) with ⟨e, hd, hd'⟩ | ⟨d, d', hd, hd', hwider⟩
        · rw [hd, hd']
          rfl
        · have hbody : flowBody raw' = d' := by rw [flowBody, hd']; rfl
          simp only [hd, hd', decodeBody_widened ht hwider]
          cases decodeBody d t with
          | error e => rfl
          | ok body =>
            simp only [Functor.map, Except.map]
            cases raw.item "name" with
            | error e => rfl
            | ok name =>
              cases raw.item "cert_output_dir" with
              | error e => rfl
              | ok certDir =>
                cases raw.item "key_output_dir" with
                | error e => rfl
                | ok keyDir => simp [pure, Except.pure, FlowConfig.withRaw, hbody]

/-! ### The payload -/

/-- Decoding a wider list, one element at a time. -/
theorem mapM_zipWith {α β ε : Type} {f : α → Except ε β} {g : α → β → β} {xs xs' : List α}
    (h : List.Forall₂ (fun x x' => f x' = g x' <$> f x) xs xs') :
    xs'.mapM f = (fun ys => List.zipWith g xs' ys) <$> xs.mapM f := by
  induction h with
  | nil => rfl
  | @cons x x' xs xs' hx _ ih =>
    rw [List.mapM_cons, List.mapM_cons, hx, ih]
    cases f x with
    | error e => rfl
    | ok y =>
      simp only [Functor.map, Except.map, bind, Except.bind]
      cases xs.mapM f <;> rfl

theorem FlowsWidened.dicts {v v' : Json} (h : FlowsWidened v v') :
    (∃ e, v.dicts = .error e ∧ v'.dicts = .error e) ∨
      ∃ raws raws', v.dicts = .ok raws ∧ v'.dicts = .ok raws' ∧
        List.Forall₂ (fun raw raw' => FlowWidened raw raw raw') raws raws' := by
  simp only [FlowsWidened] at h
  split at h
  · next xs xs' =>
    refine .inr ⟨_, _, rfl, rfl, ?_⟩
    induction h with
    | nil => exact .nil
    | @cons x x' xs xs' hx _ ih =>
      simp only [WidenedObj] at hx
      split at hx
      · next raw raw' => exact .cons hx ih
      · next hnot =>
        subst hx
        cases x with
        | obj d => exact absurd rfl (hnot d d rfl)
        | _ => exact ih
  · next hnot =>
    subst h
    cases v with
    | arr xs => exact absurd rfl (hnot xs xs rfl)
    | obj d => exact .inr ⟨[], [], rfl, rfl, .nil⟩
    | str s => exact .inr ⟨[], [], rfl, rfl, .nil⟩
    | _ => exact .inl ⟨_, rfl, rfl⟩

/-- The flows of an envelope. -/
def Dict.rawFlows (data : Dict) : List Dict :=
  (Dict.getD data "flows" (.arr [])).dicts.toOption.getD []

/-- The flows of a payload. -/
def Json.rawFlows : Json → List Dict
  | .obj data => Dict.rawFlows data
  | _ => []

/-- What is stored as it came, in a configuration. -/
def AgentConfig.withRaw (raws : List Dict) (c : AgentConfig) : AgentConfig :=
  { c with flows := List.zipWith FlowConfig.withRaw raws c.flows }

theorem EnvelopeWidened.dicts {data data' : Dict} (h : EnvelopeWidened data data') :
    (∃ e, (data.getD "flows" (.arr [])).dicts = .error e ∧
        (data'.getD "flows" (.arr [])).dicts = .error e) ∨
      ∃ raws raws', (data.getD "flows" (.arr [])).dicts = .ok raws ∧
        (data'.getD "flows" (.arr [])).dicts = .ok raws' ∧
        List.Forall₂ (fun raw raw' => FlowWidened raw raw raw') raws raws' := by
  have hrel := h.rel_getD (k := "flows") (v := .arr []) (by simp [AgentConfig.fields])
    (by simp [FlowsWidened])
  rw [if_neg (by decide), if_pos rfl] at hrel
  exact hrel.dicts

theorem AgentConfig.ofDict_widened (hostname : String) {data data' : Dict}
    (h : EnvelopeWidened data data') :
    AgentConfig.ofDict hostname data' =
      AgentConfig.withRaw data'.rawFlows <$> AgentConfig.ofDict hostname data := by
  have hnode : data'.get "node_name" = data.get "node_name" :=
    h.getD_eq (by simp [AgentConfig.fields]) (by simp) .null
  have horg : WidenedObj OrgWidened (data.get "org") (data'.get "org") := by
    have hrel := h.rel_getD (k := "org") (v := .null) (by simp [AgentConfig.fields])
      (by simp [WidenedObj])
    rwa [if_pos rfl] at hrel
  have horg' : (match data'.get "org" with
        | .obj org => some (AgentOrganizationConfig.construct org)
        | _ => none) =
      match data.get "org" with
        | .obj org => some (AgentOrganizationConfig.construct org)
        | _ => none := by
    simp only [WidenedObj] at horg
    split at horg
    · next hd hd' =>
      rw [hd, hd']
      exact congrArg some (AgentOrganizationConfig.construct_widened horg)
    · rw [horg]
  rw [AgentConfig.ofDict, AgentConfig.ofDict, hnode, Dict.rawFlows]
  rcases h.dicts with ⟨e, hraws, hraws'⟩ | ⟨raws, raws', hraws, hraws', hwider⟩
  · rw [hraws, hraws']
    rfl
  · have hmap := mapM_zipWith (hwider.imp fun _ _ => deserializeFlow_widened)
    rw [hraws, hraws']
    simp only [bind, Except.bind, hmap]
    cases raws.mapM deserializeFlow with
    | error e => rfl
    | ok flows => exact congrArg (fun org => Except.ok (AgentConfig.mk _ org _)) horg'

/-- **Decoding the wider payload.** It succeeds just if the other is decoded, and the result differs
in what is stored as it came. -/
theorem AgentConfig.fromDict_widened (hostname : String) {payload payload' : Json}
    (h : PayloadWidened payload payload') :
    AgentConfig.fromDict hostname payload' =
      AgentConfig.withRaw payload'.rawFlows <$> AgentConfig.fromDict hostname payload := by
  simp only [PayloadWidened, WidenedObj] at h
  split at h
  · exact AgentConfig.ofDict_widened hostname h
  · next hnot =>
    subst h
    cases payload with
    | obj data => exact absurd rfl (hnot data data rfl)
    | null => rfl
    | bool b => rfl
    | int n => rfl
    | float q => rfl
    | str s => rfl
    | arr xs => rfl

/-! ### When nothing differs -/

/-- With a falsy `dns_provider`, the provider configuration of an external flow is the same. -/
def FlowKeepsUntyped (raw raw' : Dict) : Prop :=
  raw.get "type" = .str "external" → ((flowBody raw).get "dns_provider").truthy = false →
    (flowBody raw').get "dns_provider_config" = (flowBody raw).get "dns_provider_config"

/-- The payloads agree on what is stored as it came. -/
def KeepsUntyped (payload payload' : Json) : Prop :=
  List.Forall₂ FlowKeepsUntyped payload.rawFlows payload'.rawFlows

theorem ExternalAcmeConfig.DecodedFrom.withRaw_eq_iff {c : ExternalAcmeConfig} {d d' : Dict}
    (hc : c.DecodedFrom d) (h : ExternalWidened d d d') :
    c.withRaw d' = c ↔ ((d.get "dns_provider").truthy = false →
      d'.get "dns_provider_config" = d.get "dns_provider_config") := by
  rw [ExternalAcmeConfig.withRaw, h.get_dnsProvider]
  cases htruthy : (d.get "dns_provider").truthy with
  | true => simp
  | false =>
    obtain ⟨-, -, hdns, -⟩ := hc
    obtain ⟨acme, domains, provider, config, dir⟩ := c
    cases provider with
    | of p =>
      cases config with
      | raw w => exact hdns.elim
      | of pc => simp [DnsDecodedFrom, htruthy] at hdns
    | raw v =>
      cases config with
      | of pc => exact hdns.elim
      | raw w =>
        obtain ⟨-, -, hw⟩ := hdns
        simp [hw]

theorem FlowConfig.DecodedFrom.withRaw_eq_iff {flow : FlowConfig} {raw raw' : Dict}
    (hflow : flow.DecodedFrom raw) (h : FlowWidened raw raw raw') :
    flow.withRaw raw' = flow ↔ FlowKeepsUntyped raw raw' := by
  obtain ⟨v, hv, htype⟩ := hflow.type
  obtain ⟨d, hd, hbody⟩ := hflow.body
  have hconfig := h.rel_config
  rw [Dict.get_of_lookup hv] at hconfig
  rcases hconfig.orEmptyDict (BodyWidened.nil v) with ⟨e, herror, -⟩ | ⟨d₁, d', hd₁, hd', hwider⟩
  · rw [hd] at herror
    cases herror
  · obtain rfl : d = d₁ := Except.ok.inj (hd.symm.trans hd₁)
    have hraw : flowBody raw = d := by rw [flowBody, hd]; rfl
    have hraw' : flowBody raw' = d' := by rw [flowBody, hd']; rfl
    have hsame : flow.withRaw raw' = flow ↔ flow.config.withRaw d' = flow.config := by
      rw [FlowConfig.withRaw, hraw']
      cases flow
      simp
    rw [hsame, FlowKeepsUntyped, Dict.get_of_lookup hv, hraw, hraw']
    rw [BodyWidened, htype] at hwider
    cases ht : flow.type with
    | internal =>
      rw [ht, FlowType.ofJson_eq_internal] at htype
      cases hc : flow.config with
      | internal c => exact iff_of_true rfl fun hext => by simp [htype] at hext
      | external c => rw [ht, hc] at hbody; exact hbody.elim
    | external =>
      rw [ht, FlowType.ofJson_eq_external] at htype
      rw [ht] at hwider
      cases hc : flow.config with
      | internal c => rw [ht, hc] at hbody; exact hbody.elim
      | external c =>
        rw [ht, hc] at hbody
        have hbody : c.DecodedFrom d := hbody
        rw [FlowBody.withRaw, FlowBody.external.injEq, hbody.withRaw_eq_iff hwider]
        exact ⟨fun h _ => h, fun h => h htype⟩

/-- The flows agree on what is stored as it came just if each of them does. -/
theorem zipWith_withRaw_eq_iff {raws raws' : List Dict} {flows : List FlowConfig}
    (hflows : List.Forall₂ (fun raw flow => FlowConfig.DecodedFrom flow raw) raws flows)
    (hwider : List.Forall₂ (fun raw raw' => FlowWidened raw raw raw') raws raws') :
    List.zipWith FlowConfig.withRaw raws' flows = flows ↔
      List.Forall₂ FlowKeepsUntyped raws raws' := by
  induction hflows generalizing raws' with
  | nil =>
    cases hwider
    simp
  | cons hflow _ ih =>
    cases hwider with
    | cons hraw hraws =>
      rw [List.zipWith_cons_cons, List.cons.injEq, List.forall₂_cons, hflow.withRaw_eq_iff hraw,
        ih hraws]

/-- **Forward compatibility.** The wider payload is decoded just if the other is, and to the same
configuration just if the two agree on what is stored as it came. -/
theorem AgentConfig.fromDict_widened_iff (hostname : String) (payload payload' : Json)
    (h : PayloadWidened payload payload') :
    ((∃ c, AgentConfig.fromDict hostname payload' = .ok c) ↔
        ∃ c, AgentConfig.fromDict hostname payload = .ok c) ∧
      ∀ c, AgentConfig.fromDict hostname payload = .ok c →
        (AgentConfig.fromDict hostname payload' = .ok c ↔ KeepsUntyped payload payload') := by
  rw [AgentConfig.fromDict_widened hostname h]
  refine ⟨?_, fun c hc => ?_⟩
  · cases AgentConfig.fromDict hostname payload <;> simp [Functor.map, Except.map]
  · cases payload with
    | obj data =>
      cases payload' with
      | obj data' =>
        obtain ⟨raws, hraws, hflows⟩ := (AgentConfig.fromDict_eq_ok.mp hc).flows
        rcases EnvelopeWidened.dicts h with ⟨e, herror, -⟩ | ⟨raws₁, raws', hraws₁, hraws', hwider⟩
        · rw [hraws] at herror
          cases herror
        · obtain rfl : raws = raws₁ := Except.ok.inj (hraws.symm.trans hraws₁)
          have hraw : (Json.obj data).rawFlows = raws := by
            rw [Json.rawFlows, Dict.rawFlows, hraws]; rfl
          have hraw' : (Json.obj data').rawFlows = raws' := by
            rw [Json.rawFlows, Dict.rawFlows, hraws']; rfl
          rw [hc, KeepsUntyped, hraw, hraw', ← zipWith_withRaw_eq_iff hflows hwider]
          cases c
          simp [Functor.map, Except.map, AgentConfig.withRaw]
      | _ => exact absurd h (by simp [PayloadWidened, WidenedObj])
    | _ => cases hc

/-- The body of an external flow with this provider and this configuration. -/
def providerBody (provider config : Json) : Dict :=
  [("dns_provider", provider), ("dns_provider_config", config)]

theorem externalRaw_widened {provider config config' : Json}
    (h : WidenedObj (ProviderWidened provider) config config') :
    PayloadWidened (.obj (externalRaw (providerBody provider config)))
      (.obj (externalRaw (providerBody provider config'))) := by
  have hbody : ExternalWidened (providerBody provider config) (providerBody provider config)
      (providerBody provider config') :=
    .keep rfl (.keep (by rw [if_pos rfl]; exact h) .nil)
  exact .keep rfl (.keep (.cons (.keep rfl (.keep rfl (.keep rfl (.keep rfl
    (.keep hbody .nil))))) .nil) .nil)

theorem fromDict_widened_demo :
    AgentConfig.fromDict "localhost" (.obj (externalRaw (providerBody (.str "cloudflare")
      (.obj [("comment", .null), ("domain", .str "example.com"), ("api_token", .str "token")])))) =
        .ok cloudflareConfig := by
  have hprovider : WidenedObj (ProviderWidened (.str "cloudflare"))
      (.obj [("domain", .str "example.com"), ("api_token", .str "token")])
      (.obj [("comment", .null), ("domain", .str "example.com"), ("api_token", .str "token")]) :=
    .add (by decide) (.keep rfl (.keep rfl .nil))
  refine ((AgentConfig.fromDict_widened_iff "localhost" (.obj cloudflareRaw) _
    (externalRaw_widened hprovider)).2 cloudflareConfig (by decide)).mpr ?_
  exact .cons (fun _ htruthy => by cases htruthy) .nil

/-- **A key under a provider configuration without its discriminator.** It is kept. -/
theorem unknown_key_kept :
    ¬ ∀ (hostname : String) (payload payload' : Json), PayloadWidened payload payload' → ∀ c,
      (AgentConfig.fromDict hostname payload' = .ok c ↔
        AgentConfig.fromDict hostname payload = .ok c) := by
  intro h
  have hprovider : WidenedObj (ProviderWidened .null) (.obj [("domain", .str "example.com")])
      (.obj [("comment", .null), ("domain", .str "example.com")]) :=
    .add (by decide) (.keep rfl .nil)
  have hsame := h "localhost" _ _ (externalRaw_widened hprovider)
    (externalConfig ⟨.of .letsencrypt, .arr [], .raw .null,
      .raw (.obj [("domain", .str "example.com")]), .str "/var/lib/nextep-agent/acme/accounts"⟩)
  exact absurd (hsame.mpr (by decide)) (by decide)

end NextepAgent
