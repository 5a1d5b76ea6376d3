import NextepAgent.Config
import Mathlib.Data.List.Forall2

/-!
# What the decoder lets through

The decoder as a relation between a dictionary and a record, one clause for each field. A
discriminator is followed only when it is truthy, so the body of an external flow comes out in one of
two shapes: with a provider and a configuration of its class, or with both as they came.

## Well-formed flows

The annotations of `ExternalAcmeConfig` promise more: `acme_provider` is a member of its enumeration,
`dns_provider` is a member or `None`, and there is a provider configuration just if there is a
provider. The payload decides whether the promise is kept (`Discriminated`): a falsy discriminator
that is not `null` breaks it, and so does a provider configuration without its discriminator.

## Main definitions

* `FlowConfig.DecodedFrom`, `AgentConfig.DecodedFrom` — the decoder as a relation
* `FlowConfig.WellFormed`, `Discriminated`

## Main results

* `deserializeFlow_eq_ok`, `AgentConfig.fromDict_eq_ok` — the relation is what the decoder computes
* `FlowConfig.DecodedFrom.wellFormed_iff_discriminated` — one flow
* `AgentConfig.wellFormed_iff` — a payload
-/

namespace NextepAgent

/-- Decoding a list decodes each of its elements. -/
theorem mapM_eq_ok {α β ε : Type} {f : α → Except ε β} {xs : List α} {ys : List β} :
    xs.mapM f = .ok ys ↔ List.Forall₂ (fun x y => f x = .ok y) xs ys := by
  induction xs generalizing ys with
  | nil => cases ys <;> simp [pure, Except.pure]
  | cons x xs ih =>
    rw [List.mapM_cons]
    cases hx : f x with
    | error e => cases ys <;> simp [hx, bind, Except.bind]
    | ok y =>
      cases hxs : xs.mapM f with
      | error e =>
        have hnone : ∀ ys, ¬ List.Forall₂ (fun x y => f x = .ok y) xs ys := fun ys hys => by
          rw [← ih, hxs] at hys
          cases hys
        cases ys <;> simp [hx, bind, Except.bind, hnone]
      | ok ys' =>
        have hsome : ∀ ys, List.Forall₂ (fun x y => f x = .ok y) xs ys ↔ ys' = ys := fun ys => by
          rw [← ih, hxs, Except.ok.injEq]
        cases ys <;> simp [hx, bind, Except.bind, pure, Except.pure, hsome]

/-- What is related to an element on the right. -/
theorem exists_of_forall₂ {α β : Type} {R : α → β → Prop} {xs : List α} {ys : List β}
    (h : List.Forall₂ R xs ys) {y : β} (hy : y ∈ ys) : ∃ x ∈ xs, R x y := by
  induction h with
  | nil => cases hy
  | cons hxy _ ih =>
    rcases List.mem_cons.mp hy with rfl | hy
    · exact ⟨_, List.mem_cons_self .., hxy⟩
    · obtain ⟨x, hx, hR⟩ := ih hy
      exact ⟨x, List.mem_cons_of_mem _ hx, hR⟩

/-- A sequence succeeds when both of its parts do. -/
theorem except_bind_eq_ok {α β ε : Type} {x : Except ε α} {f : α → Except ε β} {b : β} :
    (x >>= f) = .ok b ↔ ∃ a, x = .ok a ∧ f a = .ok b := by
  cases x with
  | error e => simp [bind, Except.bind]
  | ok a => simp [bind, Except.bind]

theorem except_map_eq_ok {α β ε : Type} {x : Except ε α} {f : α → β} {b : β} :
    f <$> x = .ok b ↔ ∃ a, x = .ok a ∧ f a = b := by
  cases x with
  | error e => simp [Functor.map, Except.map]
  | ok a => simp [Functor.map, Except.map]

theorem Dict.item_eq_ok {d : Dict} {k : String} {v : Json} :
    d.item k = .ok v ↔ d.lookup k = some v := by
  rw [Dict.item]
  cases d.lookup k <;> simp

/-! ### The body of an external flow -/

/-- What becomes of `acme_provider`. -/
def decodeAcme (raw : Dict) : Except Exc (Decoded AcmeProvider) :=
  match raw.lookup "acme_provider" with
  | some v => if v.truthy then .of <$> AcmeProvider.ofJson v else .ok (.raw v)
  | none => .ok (.of .letsencrypt)

/-- What becomes of `dns_provider` and `dns_provider_config`. -/
def decodeDns (raw : Dict) : Except Exc (Decoded DnsProvidersEnum × Decoded DnsProviderConfig) :=
  if (raw.get "dns_provider").truthy then do
    let provider ← DnsProvidersEnum.ofJson (raw.get "dns_provider")
    let pconfRaw ← (raw.get "dns_provider_config").orEmptyDict
    let pconf ← DnsProviderConfig.construct provider pconfRaw
    return (.of provider, .of pconf)
  else return (.raw (raw.get "dns_provider"), .raw (raw.get "dns_provider_config"))

/-- The body of an external flow is decoded in two parts. -/
theorem deserializeExternal_eq (raw : Dict) :
    deserializeExternal raw = do
      let acmeProvider ← decodeAcme raw
      let dns ← decodeDns raw
      return {
        acmeProvider
        domains := raw.getD "domains" (.arr [])
        dnsProvider := dns.1
        dnsProviderConfig := dns.2
        accountDir := raw.getD "account_dir" (.str "/var/lib/nextep-agent/acme/accounts") } := by
  have hdns : ∀ acmeProvider : Decoded AcmeProvider,
      (if (raw.get "dns_provider").truthy = true then do
        let provider ← DnsProvidersEnum.ofJson (raw.get "dns_provider")
        let pconfRaw ← (raw.get "dns_provider_config").orEmptyDict
        let pconf ← DnsProviderConfig.construct provider pconfRaw
        pure (ExternalAcmeConfig.mk acmeProvider (raw.getD "domains" (.arr [])) (.of provider)
          (.of pconf)
          (raw.getD "account_dir" (.str "/var/lib/nextep-agent/acme/accounts")))
      else
        pure (ExternalAcmeConfig.mk acmeProvider (raw.getD "domains" (.arr []))
          (.raw (raw.get "dns_provider")) (.raw (raw.get "dns_provider_config"))
          (raw.getD "account_dir" (.str "/var/lib/nextep-agent/acme/accounts")))) =
      (decodeDns raw >>= fun dns => pure (ExternalAcmeConfig.mk acmeProvider
        (raw.getD "domains" (.arr [])) dns.1 dns.2
        (raw.getD "account_dir" (.str "/var/lib/nextep-agent/acme/accounts")))) := by
    intro acmeProvider
    rw [decodeDns]
    split
    · cases DnsProvidersEnum.ofJson (raw.get "dns_provider") with
      | error e => rfl
      | ok provider =>
        cases (raw.get "dns_provider_config").orEmptyDict with
        | error e => rfl
        | ok pconfRaw =>
          simp only [bind, Except.bind]
          cases DnsProviderConfig.construct provider pconfRaw <;> rfl
    · rfl
  rw [deserializeExternal, decodeAcme]
  simp only [hdns]
  cases raw.lookup "acme_provider" with
  | none => rfl
  | some v =>
    simp only
    split
    · rfl
    · rfl

/-- Out of `raw` comes this `acme_provider`. -/
def AcmeDecodedFrom (raw : Dict) : Decoded AcmeProvider → Prop
  | .of p => raw.lookup "acme_provider" = none ∧ p = .letsencrypt ∨
      ∃ v, raw.lookup "acme_provider" = some v ∧ v.truthy = true ∧ AcmeProvider.ofJson v = .ok p
  | .raw v => raw.lookup "acme_provider" = some v ∧ v.truthy = false

/-- Out of `raw` come this `dns_provider` and this `dns_provider_config`. -/
def DnsDecodedFrom (raw : Dict) : Decoded DnsProvidersEnum → Decoded DnsProviderConfig → Prop
  | .of p, .of pc => (raw.get "dns_provider").truthy = true ∧
      DnsProvidersEnum.ofJson (raw.get "dns_provider") = .ok p ∧
      ∃ d, (raw.get "dns_provider_config").orEmptyDict = .ok d ∧
        DnsProviderConfig.construct p d = .ok pc
  | .raw v, .raw w => (raw.get "dns_provider").truthy = false ∧
      raw.get "dns_provider" = v ∧ raw.get "dns_provider_config" = w
  | _, _ => False

theorem decodeAcme_eq_ok {raw : Dict} {a : Decoded AcmeProvider} :
    decodeAcme raw = .ok a ↔ AcmeDecodedFrom raw a := by
  rw [decodeAcme]
  cases a with
  | of p =>
    rw [AcmeDecodedFrom]
    cases hv : raw.lookup "acme_provider" with
    | none => simp [@eq_comm _ p]
    | some v => cases htruthy : v.truthy <;> simp [htruthy, except_map_eq_ok]
  | raw w =>
    rw [AcmeDecodedFrom]
    cases hv : raw.lookup "acme_provider" with
    | none => simp
    | some v =>
      cases htruthy : v.truthy with
      | false =>
        simp only [htruthy, Bool.false_eq_true, if_false, Except.ok.injEq, Decoded.raw.injEq,
          Option.some.injEq]
        exact ⟨fun h => ⟨h, h ▸ htruthy⟩, And.left⟩
      | true =>
        simp only [htruthy, if_true, except_map_eq_ok, Option.some.injEq]
        constructor
        · rintro ⟨p, -, h⟩
          cases h
        · rintro ⟨rfl, hfalse⟩
          rw [htruthy] at hfalse
          cases hfalse

theorem decodeDns_eq_ok {raw : Dict} {p : Decoded DnsProvidersEnum} {pc : Decoded DnsProviderConfig} :
    decodeDns raw = .ok (p, pc) ↔ DnsDecodedFrom raw p pc := by
  rw [decodeDns]
  cases htruthy : (raw.get "dns_provider").truthy with
  | false => cases p <;> cases pc <;> simp [DnsDecodedFrom, htruthy, pure, Except.pure]
  | true =>
    simp only [if_true, except_bind_eq_ok, pure, Except.pure, Except.ok.injEq, Prod.mk.injEq]
    cases p with
    | raw v => cases pc <;> simp [DnsDecodedFrom, htruthy]
    | of p =>
      cases pc with
      | raw w => simp [DnsDecodedFrom]
      | of pc =>
        simp only [DnsDecodedFrom, htruthy, true_and, Decoded.of.injEq]
        constructor
        · rintro ⟨p', hp, d, hd, pc', hpc, rfl, rfl⟩
          exact ⟨hp, d, hd, hpc⟩
        · rintro ⟨hp, d, hd, hpc⟩
          exact ⟨p, hp, d, hd, pc, hpc, rfl, rfl⟩

/-- The body of an external flow, out of `raw`. -/
structure ExternalAcmeConfig.DecodedFrom (c : ExternalAcmeConfig) (raw : Dict) : Prop where
  acme : AcmeDecodedFrom raw c.acmeProvider
  domains : raw.getD "domains" (.arr []) = c.domains
  dns : DnsDecodedFrom raw c.dnsProvider c.dnsProviderConfig
  accountDir : raw.getD "account_dir" (.str "/var/lib/nextep-agent/acme/accounts") = c.accountDir

theorem deserializeExternal_eq_ok {raw : Dict} {c : ExternalAcmeConfig} :
    deserializeExternal raw = .ok c ↔ c.DecodedFrom raw := by
  rw [deserializeExternal_eq]
  simp only [except_bind_eq_ok, pure, Except.pure, Except.ok.injEq]
  constructor
  · rintro ⟨a, ha, ⟨p, pc⟩, hdns, rfl⟩
    exact ⟨decodeAcme_eq_ok.mp ha, rfl, decodeDns_eq_ok.mp hdns, rfl⟩
  · rintro ⟨hacme, hdomains, hdns, hdir⟩
    refine ⟨_, decodeAcme_eq_ok.mpr hacme, _, decodeDns_eq_ok.mpr hdns, ?_⟩
    rw [hdomains, hdir]

/-! ### A flow -/

/-- What becomes of `method`. -/
def decodeMethod (raw : Dict) (t : FlowType) : Except Exc FlowMethod :=
  if (raw.get "method").truthy then FlowMethod.ofJson (raw.get "method") else .ok t.defaultMethod

/-- The body of a flow of type `t`, out of `d`. -/
def FlowBody.DecodedFrom (d : Dict) : FlowType → FlowBody → Prop
  | .internal, .internal c => InternalX5cConfig.construct d = c
  | .external, .external c => c.DecodedFrom d
  | _, _ => False

/-- A flow, out of `raw`. -/
structure FlowConfig.DecodedFrom (flow : FlowConfig) (raw : Dict) : Prop where
  type : ∃ v, raw.lookup "type" = some v ∧ FlowType.ofJson v = .ok flow.type
  method : decodeMethod raw flow.type = .ok flow.method
  body : ∃ d, (raw.get "config").orEmptyDict = .ok d ∧ FlowBody.DecodedFrom d flow.type flow.config
  name : raw.lookup "name" = some flow.name
  certOutputDir : raw.lookup "cert_output_dir" = some flow.certOutputDir
  keyOutputDir : raw.lookup "key_output_dir" = some flow.keyOutputDir
  postRenewalScript : raw.get "post_renewal_script" = flow.postRenewalScript
  scheduleSlot : raw.get "schedule_slot" = flow.scheduleSlot
  renewBeforeDays : raw.get "renew_before_days" = flow.renewBeforeDays

/-- What becomes of the body. -/
def decodeBody (d : Dict) : FlowType → Except Exc FlowBody
  | .internal => .ok (.internal (.construct d))
  | .external => .external <$> deserializeExternal d

/-- A flow is decoded field by field. -/
theorem deserializeFlow_eq (raw : Dict) :
    deserializeFlow raw = do
      let typeRaw ← raw.item "type"
      let type ← FlowType.ofJson typeRaw
      let method ← decodeMethod raw type
      let bodyRaw ← (raw.get "config").orEmptyDict
      let config ← decodeBody bodyRaw type
      let name ← raw.item "name"
      let certOutputDir ← raw.item "cert_output_dir"
      let keyOutputDir ← raw.item "key_output_dir"
      return {
        type
        method
        name
        certOutputDir
        keyOutputDir
        config
        postRenewalScript := raw.get "post_renewal_script"
        scheduleSlot := raw.get "schedule_slot"
        renewBeforeDays := raw.get "renew_before_days" } := by
  simp only [deserializeFlow, decodeBody, decodeMethod]
  cases raw.item "type" with
  | error e => rfl
  | ok v =>
    cases htype : FlowType.ofJson v with
    | error e => simp [htype, bind, Except.bind]
    | ok t =>
      simp only [htype, bind, Except.bind, pure, Except.pure]
      split
      · cases FlowMethod.ofJson (raw.get "method") with
        | error e => rfl
        | ok m => cases (raw.get "config").orEmptyDict <;> cases t <;> rfl
      · cases (raw.get "config").orEmptyDict <;> cases t <;> rfl

theorem decodeBody_eq_ok {d : Dict} {t : FlowType} {b : FlowBody} :
    decodeBody d t = .ok b ↔ FlowBody.DecodedFrom d t b := by
  cases t with
  | internal => cases b <;> simp [decodeBody, FlowBody.DecodedFrom]
  | external =>
    cases b <;> simp [decodeBody, FlowBody.DecodedFrom, except_map_eq_ok, deserializeExternal_eq_ok]

/-- **The decoder of flows**, as a relation. -/
theorem deserializeFlow_eq_ok {raw : Dict} {flow : FlowConfig} :
    deserializeFlow raw = .ok flow ↔ flow.DecodedFrom raw := by
  rw [deserializeFlow_eq]
  simp only [except_bind_eq_ok, Dict.item_eq_ok, decodeBody_eq_ok, pure, Except.pure,
    Except.ok.injEq]
  constructor
  · rintro ⟨v, hv, t, ht, m, hm, d, hd, b, hb, n, hn, c, hc, k, hk, rfl⟩
    exact {
      type := ⟨v, hv, ht⟩, method := hm, body := ⟨d, hd, hb⟩, name := hn, certOutputDir := hc
      keyOutputDir := hk, postRenewalScript := rfl, scheduleSlot := rfl, renewBeforeDays := rfl }
  · rintro ⟨⟨v, hv, ht⟩, hm, ⟨d, hd, hb⟩, hn, hc, hk, hscript, hslot, hdays⟩
    refine ⟨v, hv, _, ht, _, hm, d, hd, _, hb, _, hn, _, hc, _, hk, ?_⟩
    rw [hscript, hslot, hdays]

/-! ### The envelope -/

/-- A configuration, out of `data`. -/
structure AgentConfig.DecodedFrom (hostname : String) (data : Dict) (c : AgentConfig) : Prop where
  nodeName : (if (data.get "node_name").truthy then data.get "node_name" else .str hostname) =
    c.nodeName
  org : (match data.get "org" with
    | .obj org => some (AgentOrganizationConfig.construct org)
    | _ => none) = c.org
  flows : ∃ raws, (data.getD "flows" (.arr [])).dicts = .ok raws ∧
    List.Forall₂ (fun raw flow => flow.DecodedFrom raw) raws c.flows

/-- **The decoder**, as a relation. -/
theorem AgentConfig.fromDict_eq_ok {hostname : String} {data : Dict} {c : AgentConfig} :
    AgentConfig.fromDict hostname (.obj data) = .ok c ↔ c.DecodedFrom hostname data := by
  rw [AgentConfig.fromDict, AgentConfig.ofDict]
  simp only [except_bind_eq_ok, mapM_eq_ok, deserializeFlow_eq_ok, pure, Except.pure,
    Except.ok.injEq]
  constructor
  · rintro ⟨raws, hraws, flows, hflows, rfl⟩
    exact ⟨rfl, rfl, raws, hraws, hflows⟩
  · rintro ⟨hnode, horg, raws, hraws, hflows⟩
    exact ⟨raws, hraws, _, hflows, by cases c; cases hnode; cases horg; rfl⟩

/-! ### Well-formed flows -/

/-- The provider whose registered class has these fields. -/
def ProviderFields.provider : ProviderFields → DnsProvidersEnum
  | .rfc2136 _ _ => .rfc2136
  | .google _ _ => .googleCloudDns
  | .cloudflare _ _ => .cloudflare

/-- What the annotations of `ExternalAcmeConfig` promise. -/
structure ExternalAcmeConfig.WellFormed (c : ExternalAcmeConfig) : Prop where
  acme : ∃ p, c.acmeProvider = .of p
  provider : c.dnsProvider = .raw .null ∨ ∃ p, c.dnsProvider = .of p
  none_iff : c.dnsProviderConfig = .raw .null ↔ c.dnsProvider = .raw .null
  registered : ∀ p, c.dnsProvider = .of p →
    ∃ pc, c.dnsProviderConfig = .of pc ∧ pc.specific.provider = p

/-- The body is of the class of the type, and keeps its promises. -/
structure FlowConfig.WellFormed (flow : FlowConfig) : Prop where
  internal_iff : (∃ c, flow.config = .internal c) ↔ flow.type = .internal
  external_iff : (∃ c, flow.config = .external c) ↔ flow.type = .external
  external : ∀ c, flow.config = .external c → c.WellFormed

/-- The discriminators in the body of an external flow are not falsy by accident: `acme_provider` is
truthy if it is there at all, and `dns_provider` is truthy, or missing along with its
configuration. -/
def Discriminated (raw : Dict) : Prop :=
  raw.get "type" = .str "external" → ∀ d, (raw.get "config").orEmptyDict = .ok d →
    (d.lookup "acme_provider" = none ∨ (d.get "acme_provider").truthy = true) ∧
      ((d.get "dns_provider").truthy = true ∨
        d.get "dns_provider" = .null ∧ d.get "dns_provider_config" = .null)

theorem FlowType.ofJson_eq_external {v : Json} :
    FlowType.ofJson v = .ok .external ↔ v = .str "external" := by
  simp only [FlowType.ofJson]
  split <;> simp_all

theorem FlowType.ofJson_eq_internal {v : Json} :
    FlowType.ofJson v = .ok .internal ↔ v = .str "internal" := by
  simp only [FlowType.ofJson]
  split <;> simp_all

theorem Dict.get_of_lookup {d : Dict} {k : String} {v : Json} (h : d.lookup k = some v) :
    d.get k = v := by
  rw [Dict.get, Dict.getD, h, Option.getD_some]

/-- A constructed configuration is of the class that was asked for. -/
theorem DnsProviderConfig.provider_of_construct {p : DnsProvidersEnum} {d : Dict}
    {pc : DnsProviderConfig} (h : DnsProviderConfig.construct p d = .ok pc) :
    pc.specific.provider = p := by
  rw [DnsProviderConfig.construct] at h
  split at h
  · cases h
    cases p <;> rfl
  · cases h

/-- `acme_provider` is a member just if it is missing or truthy. -/
theorem AcmeDecodedFrom.member_iff {raw : Dict} {a : Decoded AcmeProvider}
    (h : AcmeDecodedFrom raw a) :
    (∃ p, a = .of p) ↔
      raw.lookup "acme_provider" = none ∨ (raw.get "acme_provider").truthy = true := by
  cases a with
  | of p =>
    refine iff_of_true ⟨p, rfl⟩ ?_
    rcases h with ⟨hnone, -⟩ | ⟨v, hv, htruthy, -⟩
    · exact .inl hnone
    · exact .inr (Dict.get_of_lookup hv ▸ htruthy)
  | raw v =>
    obtain ⟨hv, hfalse⟩ := h
    refine iff_of_false (fun ⟨p, hp⟩ => nomatch hp) ?_
    rw [hv, Dict.get_of_lookup hv, hfalse]
    simp

/-- The provider and its configuration come as a pair just if the discriminator is truthy, or both
are missing. -/
theorem DnsDecodedFrom.paired_iff {raw : Dict} {p : Decoded DnsProvidersEnum}
    {pc : Decoded DnsProviderConfig} (h : DnsDecodedFrom raw p pc) :
    (p = .raw .null ∨ ∃ q, p = .of q) ∧ (pc = .raw .null ↔ p = .raw .null) ∧
        (∀ q, p = .of q → ∃ c, pc = .of c ∧ c.specific.provider = q) ↔
      (raw.get "dns_provider").truthy = true ∨
        raw.get "dns_provider" = .null ∧ raw.get "dns_provider_config" = .null := by
  cases p with
  | of q =>
    cases pc with
    | raw w => exact h.elim
    | of c =>
      obtain ⟨htruthy, -, d, -, hc⟩ := h
      refine iff_of_true ⟨.inr ⟨q, rfl⟩, by simp, fun q' hq' => ⟨c, rfl, ?_⟩⟩ (.inl htruthy)
      cases hq'
      exact DnsProviderConfig.provider_of_construct hc
  | raw v =>
    cases pc with
    | of c => exact h.elim
    | raw w =>
      obtain ⟨hfalse, rfl, rfl⟩ := h
      simp only [hfalse, Decoded.raw.injEq, reduceCtorEq, exists_false, or_false, false_or,
        false_implies, implies_true, and_true, Bool.false_eq_true]
      exact ⟨fun ⟨hv, hw⟩ => ⟨hv, hw.mpr hv⟩, fun ⟨hv, hw⟩ => ⟨hv, iff_of_true hw hv⟩⟩

/-- **One flow.** -/
theorem FlowConfig.DecodedFrom.wellFormed_iff_discriminated {flow : FlowConfig} {raw : Dict}
    (h : flow.DecodedFrom raw) : flow.WellFormed ↔ Discriminated raw := by
  obtain ⟨v, hv, htype⟩ := h.type
  obtain ⟨d, hd, hbody⟩ := h.body
  rw [Discriminated, Dict.get_of_lookup hv]
  cases ht : flow.type with
  | internal =>
    rw [ht, FlowType.ofJson_eq_internal] at htype
    cases hc : flow.config with
    | external c => rw [ht, hc] at hbody; exact hbody.elim
    | internal c =>
      refine iff_of_true ⟨?_, ?_, ?_⟩ (fun hext => by simp [htype] at hext)
      · rw [hc, ht]; simp
      · rw [hc, ht]; simp
      · rw [hc]; simp
  | external =>
    rw [ht, FlowType.ofJson_eq_external] at htype
    cases hc : flow.config with
    | internal c => rw [ht, hc] at hbody; exact hbody.elim
    | external c =>
      rw [ht, hc] at hbody
      have hbody : c.DecodedFrom d := hbody
      have hmember := hbody.acme.member_iff
      have hpaired := hbody.dns.paired_iff
      constructor
      · intro hwf _ d' hd'
        obtain rfl : d = d' := Except.ok.inj (hd.symm.trans hd')
        obtain ⟨hacme, hprovider, hnone, hregistered⟩ := hwf.external c hc
        exact ⟨hmember.mp hacme, hpaired.mp ⟨hprovider, hnone, hregistered⟩⟩
      · intro hdisc
        obtain ⟨hacme, hdns⟩ := hdisc htype d hd
        obtain ⟨hprovider, hnone, hregistered⟩ := hpaired.mpr hdns
        refine ⟨?_, ?_, ?_⟩
        · rw [hc, ht]; simp
        · rw [hc, ht]; simp
        · rintro c' hc'
          cases hc.symm.trans hc'
          exact ⟨hmember.mpr hacme, hprovider, hnone, hregistered⟩

/-- **Accepted payloads.** Every flow decoded from an accepted payload is well formed just if every
flow of the payload is discriminated. -/
theorem AgentConfig.wellFormed_iff (hostname : String) (data : Dict) (c : AgentConfig)
    (h : AgentConfig.fromDict hostname (.obj data) = .ok c) :
    (∀ flow ∈ c.flows, flow.WellFormed) ↔
      ∀ raws, (data.getD "flows" (.arr [])).dicts = .ok raws → ∀ raw ∈ raws, Discriminated raw := by
  obtain ⟨raws, hraws, hflows⟩ := (AgentConfig.fromDict_eq_ok.mp h).flows
  have hall : ∀ {raws : List Dict} {flows : List FlowConfig},
      List.Forall₂ (fun raw flow => FlowConfig.DecodedFrom flow raw) raws flows →
      ((∀ flow ∈ flows, flow.WellFormed) ↔ ∀ raw ∈ raws, Discriminated raw) := by
    intro raws flows hflows
    induction hflows with
    | nil => simp
    | cons hflow _ ih =>
      rw [List.forall_mem_cons, List.forall_mem_cons, ih, hflow.wellFormed_iff_discriminated]
  rw [hall hflows]
  constructor
  · intro hdisc raws' hraws'
    obtain rfl : raws = raws' := Except.ok.inj (hraws.symm.trans hraws')
    exact hdisc
  · exact fun hdisc => hdisc raws hraws

/-- A payload with one external flow, with this body. -/
def externalRaw (body : Dict) : Dict :=
  [("node_name", .str "host"), ("flows", .arr [.obj [("type", .str "external"),
    ("name", .str "ext"), ("cert_output_dir", .str "/c"), ("key_output_dir", .str "/k"),
    ("config", .obj body)]])]

/-- What it is decoded to. -/
def externalConfig (c : ExternalAcmeConfig) : AgentConfig where
  nodeName := .str "host"
  org := none
  flows := [{
    type := .external, method := .dns01, name := .str "ext", certOutputDir := .str "/c"
    keyOutputDir := .str "/k", config := .external c, postRenewalScript := .null
    scheduleSlot := .null, renewBeforeDays := .null }]

/-- A Cloudflare flow, as it is pulled and as it is decoded. -/
def cloudflareRaw : Dict :=
  externalRaw [("dns_provider", .str "cloudflare"), ("dns_provider_config",
    .obj [("domain", .str "example.com"), ("api_token", .str "token")])]

def cloudflareConfig : AgentConfig :=
  externalConfig ⟨.of .letsencrypt, .arr [], .of .cloudflare,
    .of ⟨.str "example.com", .int 30, .int 300, .cloudflare (.str "token") (.str "")⟩,
    .str "/var/lib/nextep-agent/acme/accounts"⟩

theorem wellFormed_iff_demo :
    cloudflareConfig.flows ≠ [] ∧ ∀ flow ∈ cloudflareConfig.flows, flow.WellFormed := by
  refine ⟨by simp [cloudflareConfig, externalConfig], (AgentConfig.wellFormed_iff "localhost"
    cloudflareRaw cloudflareConfig (by decide)).mpr ?_⟩
  intro raws hraws raw hraw _ d hd
  cases hraws
  obtain rfl := List.mem_singleton.mp hraw
  cases hd
  exact ⟨.inl rfl, .inl rfl⟩

/-- **A provider configuration without its discriminator.** It is accepted, and stays a
dictionary. -/
theorem untyped_provider_config :
    ¬ ∀ (hostname : String) (data : Dict) (c : AgentConfig),
      AgentConfig.fromDict hostname (.obj data) = .ok c → ∀ flow ∈ c.flows, flow.WellFormed := by
  intro h
  have hwf := h "localhost"
    (externalRaw [("dns_provider_config", .obj [("domain", .str "example.com")])])
    (externalConfig ⟨.of .letsencrypt, .arr [], .raw .null,
      .raw (.obj [("domain", .str "example.com")]), .str "/var/lib/nextep-agent/acme/accounts"⟩)
    (by decide) _ (List.mem_singleton.mpr rfl)
  have hnone := (hwf.external _ rfl).none_iff.mpr rfl
  cases hnone

end NextepAgent
