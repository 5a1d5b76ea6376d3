import NextepAgent.Config
import NextepAgent.Host

/-!
# Running one flow

The shared part of the flow runners: look at the certificate on disk, leave it if it will do,
otherwise obtain a new one, write it and its key, and run the post-renewal script.

`_obtain` is the one step that is not modelled beyond its outcome. Everything the CA and the network
decide comes back as two strings or an exception.

## The certificate parser

`load_pem_x509_certificates` belongs to a third-party package. It is a field of the runner, a
function from bytes to certificates that may raise. What a certificate says about its names is
likewise behind an exception, because extensions are parsed when they are asked for.

## Main definitions

* `Certificate`, `FlowRunner`, `IssueResult`
* `FlowRunner.upToDate` — the gate
* `writeIfChanged`, `FlowRunner.write`
* `FlowRunner.run`
-/

namespace NextepAgent

open Effect Program

/-! ### Certificates -/

/-- An entry of a subject alternative name extension. -/
inductive GeneralName
  | dns (s : String)
  | ip (s : String)
  | other
  deriving DecidableEq

/-- What the agent reads of a certificate. -/
structure Certificate where
  notValidBefore : ℤ
  notValidAfter : ℤ
  /-- `extensions.get_extension_for_class(SubjectAlternativeName)`. `none` is `ExtensionNotFound`,
  and parsing malformed extensions raises. -/
  san : Except Exc (Option (List GeneralName))
  deriving DecidableEq

/-- `get_values_for_type(x509.DNSName)`. -/
def dnsNames (names : List GeneralName) : List String :=
  names.filterMap fun
    | .dns s => some s
    | _ => none

/-- `_sans_of`. -/
def sansOf (cert : Certificate) : Except Exc (List String) :=
  cert.san.map fun ext => dnsNames (ext.getD [])

/-! ### Sets of names -/

/-- Whether a value can be put in a set. -/
def Json.hashable : Json → Bool
  | .arr _ | .obj _ => false
  | _ => true

/-- The elements of `set(v)`. -/
def Json.toSet : Json → Except Exc (List Json)
  | .arr xs => if xs.all Json.hashable then .ok xs else .error ⟨.typeError, "unhashable type"⟩
  | .obj d => .ok (d.map fun kv => .str kv.1)
  | .str s => .ok (s.toList.map fun c => .str (String.ofList [c]))
  | _ => .error ⟨.typeError, "object is not iterable"⟩

/-- `set(sans) == expected`. -/
def sameNames (sans : List String) (expected : List Json) : Bool :=
  expected.all (fun v => sans.any fun s => v = .str s) && sans.all fun s => expected.contains (.str s)

/-! ### The runner -/

/-- A flow, the family of the host, and the parser. -/
structure FlowRunner where
  flow : FlowConfig
  /-- `_os_family()`. -/
  osFamily : String
  /-- `x509.load_pem_x509_certificates`. -/
  loadPem : Bytes → Except Exc (List Certificate)

/-- Outcome of a single flow issuance. -/
structure IssueResult where
  flowType : String
  notBefore : ℤ
  notAfter : ℤ
  sans : List String
  changed : Bool
  deriving DecidableEq

/-- `platform_paths.cert_output_dir()`. -/
def certOutputDir (osFamily : String) : String :=
  if osFamily = "rhel" then "/etc/pki/tls/certs" else "/etc/ssl/certs"

/-- `platform_paths.key_output_dir()`. -/
def keyOutputDir (osFamily : String) : String :=
  if osFamily = "rhel" then "/etc/pki/tls/private" else "/etc/ssl/private"

/-- `Path(v or default)`. -/
def Json.orDir (v : Json) (default : String) : Except Exc String :=
  if v.truthy then
    match v with
    | .str s => .ok s
    | _ => .error ⟨.typeError, "argument should be a str or an os.PathLike object"⟩
  else .ok default

/-- `v or default`. -/
def Json.orStr (v : Json) (default : String) : Json := if v.truthy then v else .str default

/-- What `for x in v` goes through. -/
def Json.items : Json → Except Exc (List Json)
  | .arr xs => .ok xs
  | .obj d => .ok (d.map fun kv => .str kv.1)
  | .str s => .ok (s.toList.map fun c => .str (String.ofList [c]))
  | _ => .error ⟨.typeError, "object is not iterable"⟩

/-- What the agent supplies where the pulled configuration leaves a field empty. -/
structure BootstrapDefaults where
  smallstepRootPem : String
  machineCertPath : String
  machineKeyPath : String
  caUrl : String
  provisioner : String
  acmeAdminEmail : String

/-- `certs[0]`. -/
def firstCert : List Certificate → Except Exc Certificate
  | [] => .error ⟨.indexError, "list index out of range"⟩
  | c :: _ => .ok c

/-- The `try` block of `_write_if_changed`: whether the content is there already. -/
def readsAs (path : Path) (content : Text) : Runner Bool :=
  Program.tryCatch
    (do
      let old ← sys (.readText path)
      return old == content)
    fun e => if e.isA .fileNotFoundError then return false else raise e

/-- `_write_if_changed`. -/
def writeIfChanged (path : Path) (content : Text) (mode : ℕ) : Runner Bool := do
  sys (.mkdirParents path)
  if ← readsAs path content then
    return false
  else
    sys (.writeText path content)
    sys (.chmod path mode)
    return true

namespace FlowRunner

/-- `_cert_path`. -/
def certPath (self : FlowRunner) : Except Exc Path := do
  return ⟨← self.flow.certOutputDir.orDir (certOutputDir self.osFamily), self.flow.name, ".pem"⟩

/-- `_key_path`. -/
def keyPath (self : FlowRunner) : Except Exc Path := do
  return ⟨← self.flow.keyOutputDir.orDir (keyOutputDir self.osFamily), self.flow.name, ".key"⟩

/-- `_expected_sans`: the permitted SANs of an internal flow, the domains of an external one. -/
def expectedSans (self : FlowRunner) : Except Exc (List Json) :=
  match self.flow.type, self.flow.config with
  | .internal, .internal c => c.permittedSans.toSet
  | .external, .external c => c.domains.toSet
  | _, _ => .error ⟨.assertionError, ""⟩

/-- The renewal threshold: the configured one, or `min(30, lifetime_days // 3)`. -/
def threshold (self : FlowRunner) (leaf : Certificate) : Json :=
  match self.flow.renewBeforeDays with
  | .null => .int (min 30 (days (leaf.notValidAfter - leaf.notValidBefore) / 3))
  | v => v

/-- The `try` block of `_up_to_date`. -/
def deployed (self : FlowRunner) (certOut keyOut : Path) : Runner (Option Certificate) :=
  Program.tryCatch
    (do
      let certBytes ← sys (.readBytes certOut)
      if !(← sys (.pathExists keyOut)) then
        return none
      else
        let certs ← ofExcept (self.loadPem certBytes)
        let leaf ← ofExcept (firstCert certs)
        return some leaf)
    fun e =>
      if e.isA .fileNotFoundError || e.isA .valueError || e.isA .indexError then return none
      else raise e

/-- The rest of `_up_to_date`: names, then days left. -/
def adequate (self : FlowRunner) (leaf : Certificate) : Runner (Option Certificate) := do
  let sans ← ofExcept (sansOf leaf)
  let expected ← ofExcept self.expectedSans
  if !sameNames sans expected then
    return none
  else
    let now ← sys .utcnow
    let near ← ofExcept ((self.threshold leaf).isLe (days (leaf.notValidAfter - now)))
    if near then return none else return some leaf

/-- `_up_to_date`. -/
def upToDate (self : FlowRunner) : Runner (Option Certificate) := do
  let certOut ← ofExcept self.certPath
  let keyOut ← ofExcept self.keyPath
  match ← self.deployed certOut keyOut with
  | none => return none
  | some leaf => self.adequate leaf

/-- `_write`. -/
def write (self : FlowRunner) (certPem : Text) (keyPem : Option Text) : Runner Bool := do
  if !self.flow.name.truthy then
    raise ⟨.runtimeError, "flow is missing a name"⟩
  else
    let certOut ← ofExcept self.certPath
    let changed ← writeIfChanged certOut certPem 0o644
    match keyPem with
    | none => return changed
    | some keyPem =>
      let keyOut ← ofExcept self.keyPath
      let _ ← writeIfChanged keyOut keyPem 0o600
      return changed

/-- `_leaf_cert`. -/
def leafCert (self : FlowRunner) (chainPem : Text) : Except Exc Certificate := do
  match ← self.loadPem (← encode chainPem) with
  | [] => throw ⟨.valueError, "no certificate found in issued PEM"⟩
  | leaf :: _ => return leaf

/-- `_run_post_renewal`. What the script exits with is only logged. -/
def runPostRenewal (self : FlowRunner) : Runner Unit :=
  Program.tryCatch
    (do
      let _ ← sys (.runScript self.flow.postRenewalScript)
      return ())
    fun e => if e.isA .timeoutExpired then return () else raise e

/-- The result that tells of a certificate. -/
def issueResult (self : FlowRunner) (leaf : Certificate) (changed : Bool) :
    Except Exc IssueResult := do
  return {
    flowType := self.flow.type.value
    notBefore := leaf.notValidBefore
    notAfter := leaf.notValidAfter
    sans := ← sansOf leaf
    changed }

/-- The end of `run`: parse what was obtained, run the hook if it is due, report. -/
def finish (self : FlowRunner) (certPem : Text) (changed : Bool) : Runner IssueResult := do
  let leaf ← ofExcept (self.leafCert certPem)
  if changed && self.flow.postRenewalScript.truthy then
    self.runPostRenewal
    ofExcept (self.issueResult leaf changed)
  else
    ofExcept (self.issueResult leaf changed)

/-- What `run` does with what `_obtain` returned. -/
def issue (self : FlowRunner) (certPem keyPem : Text) : Runner IssueResult := do
  let changed ← self.write certPem (some keyPem)
  self.finish certPem changed

/-- `run`. -/
def run (self : FlowRunner) : Runner IssueResult := do
  match ← self.upToDate with
  | some current => ofExcept (self.issueResult current false)
  | none =>
    let (certPem, keyPem) ← sys .obtain
    self.issue certPem keyPem

end FlowRunner

/-! ### A flow to try things on -/

/-- A decoded internal flow for one name, with its files in `/c` and `/k`. -/
def demoFlow (name : String) : FlowConfig where
  type := .internal
  method := .x5c
  name := .str "app"
  certOutputDir := .str "/c"
  keyOutputDir := .str "/k"
  config := .internal ⟨.str "", .str "", .str "", .str "", .str "", .str "", .arr [.str name]⟩
  postRenewalScript := .null
  scheduleSlot := .null
  renewBeforeDays := .null

/-- The configuration it is decoded from. -/
def demoRaw (name : String) : Dict :=
  [("type", .str "internal"), ("name", .str "app"), ("cert_output_dir", .str "/c"),
    ("key_output_dir", .str "/k"), ("config", .obj [("permitted_sans", .arr [.str name])])]

example : deserializeFlow (demoRaw "app") = .ok (demoFlow "app") := by decide

/-- A runner with a parser that knows a few files. -/
def demoRunner (flow : FlowConfig) (known : List (String × Certificate)) : FlowRunner where
  flow
  osFamily := "debian"
  loadPem b :=
    match known.find? fun kc => kc.1.toByteArray = b with
    | some kc => .ok [kc.2]
    | none => .error ⟨.valueError, "Unable to load PEM file"⟩

/-- A host where everything works. -/
def demoEnv (now : ℤ) (obtain : Except Exc (Text × Text)) : HostEnv where
  readBytes _ := none
  pathExists _ := none
  utcnow := now
  obtain
  mkdirParents _ := none
  readText _ := none
  writeText _ := .works
  chmod _ := none
  runScript := .exited 0 .empty .empty

/-- The certificate file of `demoFlow`. -/
def demoCert : Path := ⟨"/c", .str "app", ".pem"⟩

/-- The key file of `demoFlow`. -/
def demoKey : Path := ⟨"/k", .str "app", ".key"⟩

/-- A host without files. -/
def noFiles : Host := ⟨fun _ => none, 0o022, 0⟩

/-- A host with the two files of `demoFlow`. -/
def demoHost (cert key : String) : Host :=
  (noFiles.put demoCert cert.toByteArray).put demoKey key.toByteArray

end NextepAgent
