import NextepAgent.Python

/-!
# The pulled configuration

One `AgentConfig` per host: a list of flows, each with a common envelope and a body chosen by its
`type`. The decoder checks the discriminators and the presence of a few keys. Every other field is
taken as it comes, so it is a `Json` here, and a name may be a number and a slot a string.

## Falsy discriminators

`acme_provider` and `dns_provider` are converted only when they are truthy. A falsy one is stored
raw, and with a falsy `dns_provider` so is `dns_provider_config`. `Decoded` keeps the two apart.

## Main definitions

* `FlowType`, `FlowMethod`, `AcmeProvider`, `DnsProvidersEnum` — the enumerations
* `FlowConfig`, `AgentConfig` — a flow, and the envelope
* `AgentConfig.fromDict` — the decoder
-/

namespace NextepAgent

/-! ### Enumerations -/

/-- Top-level flow category. -/
inductive FlowType
  | internal
  | external
  deriving DecidableEq, Repr

/-- Per-flow method. -/
inductive FlowMethod
  | x5c
  | scep
  | dns01
  deriving DecidableEq, Repr

/-- Which ACME CA an external flow targets. -/
inductive AcmeProvider
  | letsencrypt
  | letsencryptStaging
  | internalAcme
  deriving DecidableEq, Repr

/-- The supported DNS providers. -/
inductive DnsProvidersEnum
  | rfc2136
  | googleCloudDns
  | cloudflare
  deriving DecidableEq, Repr

/-- `str(t)`. -/
def FlowType.value : FlowType → String
  | .internal => "internal"
  | .external => "external"

/-- `str(m)`. -/
def FlowMethod.value : FlowMethod → String
  | .x5c => "x5c"
  | .scep => "scep"
  | .dns01 => "dns-01"

/-- `FlowType(v)`. -/
def FlowType.ofJson : Json → Except Exc FlowType
  | .str "internal" => .ok .internal
  | .str "external" => .ok .external
  | _ => .error ⟨.valueError, "is not a valid FlowType"⟩

/-- `FlowMethod(v)`. -/
def FlowMethod.ofJson : Json → Except Exc FlowMethod
  | .str "x5c" => .ok .x5c
  | .str "scep" => .ok .scep
  | .str "dns-01" => .ok .dns01
  | _ => .error ⟨.valueError, "is not a valid FlowMethod"⟩

/-- `AcmeProvider(v)`. -/
def AcmeProvider.ofJson : Json → Except Exc AcmeProvider
  | .str "letsencrypt" => .ok .letsencrypt
  | .str "letsencrypt-staging" => .ok .letsencryptStaging
  | .str "internal-acme" => .ok .internalAcme
  | _ => .error ⟨.valueError, "is not a valid AcmeProvider"⟩

/-- `DnsProvidersEnum(v)`. -/
def DnsProvidersEnum.ofJson : Json → Except Exc DnsProvidersEnum
  | .str "ddns" => .ok .rfc2136
  | .str "googleclouddns" => .ok .googleCloudDns
  | .str "cloudflare" => .ok .cloudflare
  | _ => .error ⟨.valueError, "is not a valid DnsProvidersEnum"⟩

/-- `_DEFAULT_METHOD`. -/
def FlowType.defaultMethod : FlowType → FlowMethod
  | .internal => .x5c
  | .external => .dns01

/-! ### Records -/

/-- A field the decoder converts only when its raw value is truthy. -/
inductive Decoded (α : Type)
  | of (a : α)
  | raw (v : Json)
  deriving DecidableEq

/-- Org-level settings. -/
structure AgentOrganizationConfig where
  spogUrl : Json
  smallstepRootPem : Json
  acmeDirectoryUrl : Json
  acmeAdminEmail : Json
  deriving DecidableEq

/-- Body of an internal (x5c) flow. -/
structure InternalX5cConfig where
  caUrl : Json
  provisioner : Json
  x5cCertPath : Json
  x5cKeyPath : Json
  rootBundlePath : Json
  hostname : Json
  permittedSans : Json
  deriving DecidableEq

/-- The fields that are specific to one provider. -/
inductive ProviderFields
  | rfc2136 (server tsigKey : Json)
  | google (projectId serviceAccountInfo : Json)
  | cloudflare (apiToken zoneId : Json)
  deriving DecidableEq

/-- A DNS provider configuration: the shared fields, and those of its class. -/
structure DnsProviderConfig where
  domain : Json
  propagationDelay : Json
  ttl : Json
  specific : ProviderFields
  deriving DecidableEq

/-- Body of an external (ACME DNS-01) flow. -/
structure ExternalAcmeConfig where
  acmeProvider : Decoded AcmeProvider
  domains : Json
  dnsProvider : Decoded DnsProvidersEnum
  dnsProviderConfig : Decoded DnsProviderConfig
  accountDir : Json
  deriving DecidableEq

/-- The body of a flow. -/
inductive FlowBody
  | internal (c : InternalX5cConfig)
  | external (c : ExternalAcmeConfig)
  deriving DecidableEq

/-- One certificate flow. -/
structure FlowConfig where
  type : FlowType
  method : FlowMethod
  name : Json
  certOutputDir : Json
  keyOutputDir : Json
  config : FlowBody
  postRenewalScript : Json
  scheduleSlot : Json
  renewBeforeDays : Json
  deriving DecidableEq

/-- The envelope. -/
structure AgentConfig where
  nodeName : Json
  org : Option AgentOrganizationConfig
  flows : List FlowConfig
  deriving DecidableEq

/-! ### The decoder -/

/-- A Python `dict` out of `json.loads`: its keys are distinct. -/
abbrev Dict : Type := List (String × Json)

/-- `d.get(k, default)`. -/
def Dict.getD (d : Dict) (k : String) (default : Json) : Json := (d.lookup k).getD default

/-- `d.get(k)`. -/
def Dict.get (d : Dict) (k : String) : Json := d.getD k .null

/-- `d[k]`. -/
def Dict.item (d : Dict) (k : String) : Except Exc Json :=
  match d.lookup k with
  | some v => .ok v
  | none => .error ⟨.keyError, k⟩

/-- `v or {}`, used as a dictionary. -/
def Json.orEmptyDict (v : Json) : Except Exc Dict :=
  if v.truthy then
    match v with
    | .obj d => .ok d
    | _ => .error ⟨.other, "object has no attribute 'items'"⟩
  else .ok []

/-- `_construct(AgentOrganizationConfig, raw)`. -/
def AgentOrganizationConfig.construct (raw : Dict) : AgentOrganizationConfig where
  spogUrl := raw.getD "spog_url" (.str "")
  smallstepRootPem := raw.getD "smallstep_root_pem" (.str "")
  acmeDirectoryUrl := raw.getD "acme_directory_url" (.str "")
  acmeAdminEmail := raw.getD "acme_admin_email" (.str "")

/-- `_construct(InternalX5cConfig, raw)`. -/
def InternalX5cConfig.construct (raw : Dict) : InternalX5cConfig where
  caUrl := raw.getD "ca_url" (.str "")
  provisioner := raw.getD "provisioner" (.str "")
  x5cCertPath := raw.getD "x5c_cert_path" (.str "")
  x5cKeyPath := raw.getD "x5c_key_path" (.str "")
  rootBundlePath := raw.getD "root_bundle_path" (.str "")
  hostname := raw.getD "hostname" (.str "")
  permittedSans := raw.getD "permitted_sans" (.arr [])

/-- The specific fields of `_PROVIDER_CONFIG_CLASSES[provider]`. -/
def ProviderFields.construct (raw : Dict) : DnsProvidersEnum → ProviderFields
  | .rfc2136 => .rfc2136 (raw.getD "server" (.str "")) (raw.getD "tsig_key" (.str ""))
  | .googleCloudDns =>
    .google (raw.getD "project_id" (.str "")) (raw.getD "service_account_info" (.str ""))
  | .cloudflare => .cloudflare (raw.getD "api_token" (.str "")) (raw.getD "zone_id" (.str ""))

/-- `_PROVIDER_CONFIG_CLASSES[provider](**raw)`: only `domain` is required. -/
def DnsProviderConfig.construct (provider : DnsProvidersEnum) (raw : Dict) :
    Except Exc DnsProviderConfig :=
  match raw.lookup "domain" with
  | some domain => .ok
      { domain
        propagationDelay := raw.getD "propagation_delay" (.int 30)
        ttl := raw.getD "ttl" (.int 300)
        specific := .construct raw provider }
  | none => .error ⟨.typeError, "missing 1 required positional argument: 'domain'"⟩

/-- `_deserialize_external`. -/
def deserializeExternal (raw : Dict) : Except Exc ExternalAcmeConfig := do
  let acmeProvider ←
    match raw.lookup "acme_provider" with
    | some v => if v.truthy then .of <$> AcmeProvider.ofJson v else pure (.raw v)
    | none => pure (.of .letsencrypt)
  let provider := raw.get "dns_provider"
  if provider.truthy then
    let provider ← DnsProvidersEnum.ofJson provider
    let pconfRaw ← (raw.get "dns_provider_config").orEmptyDict
    let pconf ← DnsProviderConfig.construct provider pconfRaw
    return {
      acmeProvider
      domains := raw.getD "domains" (.arr [])
      dnsProvider := .of provider
      dnsProviderConfig := .of pconf
      accountDir := raw.getD "account_dir" (.str "/var/lib/nextep-agent/acme/accounts") }
  else
    return {
      acmeProvider
      domains := raw.getD "domains" (.arr [])
      dnsProvider := .raw provider
      dnsProviderConfig := .raw (raw.get "dns_provider_config")
      accountDir := raw.getD "account_dir" (.str "/var/lib/nextep-agent/acme/accounts") }

/-- `_deserialize_flow`. -/
def deserializeFlow (raw : Dict) : Except Exc FlowConfig := do
  let flowType ← FlowType.ofJson (← raw.item "type")
  let method ←
    if (raw.get "method").truthy then FlowMethod.ofJson (raw.get "method")
    else pure flowType.defaultMethod
  let bodyRaw ← (raw.get "config").orEmptyDict
  let body ←
    match flowType with
    | .external => .external <$> deserializeExternal bodyRaw
    | .internal => pure (.internal (.construct bodyRaw))
  return {
    type := flowType
    method
    name := ← raw.item "name"
    certOutputDir := ← raw.item "cert_output_dir"
    keyOutputDir := ← raw.item "key_output_dir"
    config := body
    postRenewalScript := raw.get "post_renewal_script"
    scheduleSlot := raw.get "schedule_slot"
    renewBeforeDays := raw.get "renew_before_days" }

/-- What `for f in v` goes through, of which only the dictionaries are kept. -/
def Json.dicts : Json → Except Exc (List Dict)
  | .arr xs => .ok (xs.filterMap fun | .obj d => some d | _ => none)
  | .str _ | .obj _ => .ok []
  | _ => .error ⟨.typeError, "object is not iterable"⟩

/-- `AgentConfig._from_dict`, on a host that calls itself `hostname`. -/
def AgentConfig.ofDict (hostname : String) (data : Dict) : Except Exc AgentConfig := do
  let nodeName := data.get "node_name"
  let flows ← (data.getD "flows" (.arr [])).dicts
  return {
    nodeName := if nodeName.truthy then nodeName else .str hostname
    org :=
      match data.get "org" with
      | .obj org => some (.construct org)
      | _ => none
    flows := ← flows.mapM deserializeFlow }

/-- `AgentConfig.from_dict`. -/
def AgentConfig.fromDict (hostname : String) : Json → Except Exc AgentConfig
  | .obj data => AgentConfig.ofDict hostname data
  | _ => .error ⟨.other, "object has no attribute 'get'"⟩

end NextepAgent
