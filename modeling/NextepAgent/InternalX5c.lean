import NextepAgent.Base64
import NextepAgent.Decoding
import NextepAgent.Effect.Dialogue
import NextepAgent.Network
import NextepAgent.OsRelease

/-!
# The internal flow

A certificate from step-ca, asked for with the credential of the machine. The runner makes a key for
the service and a request for a certificate of it, and a one-time token, signed with the key of the
machine, that carries the machine's chain in its header. It sends both to the CA in one POST.

Everything the CA checks depends on values that come from different places agreeing: the names of the
token and those of the request, the host it is meant for and the host it is sent to, the key that
signs and the chain that is shown. What is sent is therefore specified by where each part of it has
come from, in terms of the calls before, and for every environment.

## Third parties

Certificates, keys, tokens and HTTP belong to packages. Calls that read, draw randomness or send are
operations, which may answer anything or raise. What only computes is a field of the runner. Keys are
of some type `K`, and the only way from one to text is `privatePem`.

## Main definitions

* `X5cOp`, `x5cSig`, `InternalX5cRunner.obtain`
* `InternalX5cRunner.Supplication` — all that a POST is made of
* `InternalX5cRunner.MayAsk` — the calls that may be made, after those before
* `InternalX5cRunner.Issued` — where a result comes from

## Main results

* `InternalX5cRunner.supplication_of_obtain` — every call is justified, and so is the result
* `InternalX5cRunner.pair_on_disk` — what a run leaves in the two files
-/

namespace NextepAgent

open Effect Program

/-! ### What is sent -/

/-- `base64.b64encode(b).decode()`, which has `+` and `/` where the other alphabet has `-` and `_`. -/
def b64encode (b : Bytes) : String :=
  String.ofList ((Base64.encode b.data.toList).map fun c =>
    if c = '-' then '+' else if c = '_' then '/' else c)

/-- The `alg` of a token. -/
inductive Alg
  | es256 | es384 | es512 | rs256
  deriving DecidableEq

/-- The claims of a token. -/
structure TokenClaims where
  iss : Json
  sub : Json
  aud : String
  sans : List Json
  iat : ℤ
  nbf : ℤ
  exp : ℤ
  jti : String
  deriving DecidableEq

/-- What the TLS certificate of step-ca is verified against. -/
inductive Trust
  | cafile (path : Json)
  | cadata (pem : String)
  deriving DecidableEq

/-- `httpx.URL`, as far as it is looked at. -/
structure HttpxUrl where
  scheme : String
  host : String

/-- A response of step-ca. -/
structure SignResponse where
  statusCode : ℤ
  text : String
  /-- `resp.json()`. -/
  json : Except Exc Json

variable {K : Type}

/-- The calls of an issuance. -/
inductive X5cOp (K : Type)
  /-- `open(path, "rb")`, and `read`. -/
  | readFile (path : Json)
  /-- `ec.generate_private_key(ec.SECP256R1())`. -/
  | generateKey
  /-- A PEM request, with this common name and these DNS names, signed with `key`. -/
  | signCsr (key : K) (commonName : Json) (sans : List Json)
  | utcnow
  /-- `uuid.uuid4().hex`. -/
  | uuid4
  /-- `jwt.encode`. -/
  | encodeToken (claims : TokenClaims) (key : K) (alg : Alg) (x5c : List String)
  /-- `ssl.create_default_context`. -/
  | createContext (trust : Trust)
  /-- A POST of `{"csr": csr, "ott": ott}` by a client with this context. -/
  | post (verify : Trust) (url csr ott : String)

/-- Whether a call sends anything. -/
def X5cOp.sends : X5cOp K → Bool
  | .post _ _ _ _ => true
  | _ => false

/-- What each returns. -/
abbrev X5cOp.Ans : X5cOp K → Type
  | .readFile _ => Bytes
  | .generateKey => K
  | .signCsr _ _ _ => String
  | .utcnow => ℤ
  | .uuid4 => String
  | .encodeToken _ _ _ _ => String
  | .createContext _ => Unit
  | .post _ _ _ _ => SignResponse

/-- The calls of an issuance, as a signature. -/
abbrev x5cSig (K : Type) : Sig := ⟨X5cOp K, X5cOp.Ans⟩

/-- One call. -/
def supply (o : X5cOp K) : Program Exc (x5cSig K) o.Ans := @Program.perform Exc (x5cSig K) o

/-! ### The runner -/

/-- A runner for internal flows. -/
structure InternalX5cRunner (K : Type) extends FlowRunner where
  defaults : BootstrapDefaults
  /-- `str(v)` of a value that is not a string. -/
  str : Json → String
  /-- `httpx.URL`. -/
  url : Json → Except Exc HttpxUrl
  /-- The DER of each certificate that `x509.load_pem_x509_certificates` finds. -/
  loadChain : Bytes → Except Exc (List Bytes)
  /-- `serialization.load_pem_private_key`. -/
  loadPrivateKey : Bytes → Except Exc K
  /-- The size of the curve, for a key on an elliptic curve. -/
  curveBits : K → Option ℕ
  /-- PKCS #8, in PEM and without encryption. -/
  privatePem : K → Except Exc Text

/-- `"".join(v)`. -/
def Json.joined (v : Json) : Except Exc String := do
  let parts ← (← v.items).mapM fun
    | .str s => .ok s
    | _ => .error ⟨.typeError, "sequence item: expected str instance"⟩
  return String.join parts

/-- `data.get("certChain") or [data["crt"]]`. -/
def certChain : Json → Except Exc Json
  | .obj data => do
    if (Dict.get data "certChain").truthy then return Dict.get data "certChain"
    else return .arr [← Dict.item data "crt"]
  | _ => .error ⟨.other, "object has no attribute 'get'"⟩

/-- `"".join(data.get("certChain") or [data["crt"]])`. -/
def SignResponse.chainPem (resp : SignResponse) : Except Exc String := do
  (← certChain (← resp.json)).joined

namespace InternalX5cRunner

variable (self : InternalX5cRunner K)

/-- `_cfg`. -/
def cfg : Except Exc InternalX5cConfig :=
  match self.flow.config with
  | .internal cfg => .ok cfg
  | .external _ => .error ⟨.assertionError, ""⟩

/-- `_alg_for_key`. -/
def algForKey (key : K) : Alg :=
  match self.curveBits key with
  | some 256 => .es256
  | some 384 => .es384
  | some 521 => .es512
  | some _ => .es256
  | none => .rs256

/-- `cfg.ca_url or self.defaults.ca_url`. -/
def caUrl (cfg : InternalX5cConfig) : Json := cfg.caUrl.orStr self.defaults.caUrl

/-- `cfg.provisioner or self.defaults.provisioner`. -/
def provisioner (cfg : InternalX5cConfig) : Json := cfg.provisioner.orStr self.defaults.provisioner

/-- `cfg.x5c_cert_path or self.defaults.machine_cert_path`. -/
def x5cCertPath (cfg : InternalX5cConfig) : Json :=
  cfg.x5cCertPath.orStr self.defaults.machineCertPath

/-- `cfg.x5c_key_path or self.defaults.machine_key_path`. -/
def x5cKeyPath (cfg : InternalX5cConfig) : Json := cfg.x5cKeyPath.orStr self.defaults.machineKeyPath

/-- `f"{ca_url.rstrip('/')}/1.0/sign"`. -/
def postUrl (cfg : InternalX5cConfig) : Except Exc String :=
  match self.caUrl cfg with
  | .str s => .ok (String.ofList (s.toList.rdropWhile (· = '/')) ++ "/1.0/sign")
  | _ => .error ⟨.other, "object has no attribute 'rstrip'"⟩

/-- `f"{base.scheme}://{base.host}/1.0/sign#x5c/{provisioner}"`. -/
def audience (cfg : InternalX5cConfig) (base : HttpxUrl) : String :=
  base.scheme ++ "://" ++ base.host ++ "/1.0/sign#x5c/" ++ (self.provisioner cfg).format self.str

/-- The claims of the token. `_TOKEN_TTL` is 300 seconds. -/
def claims (cfg : InternalX5cConfig) (base : HttpxUrl) (now : ℤ) (jti : String) : TokenClaims where
  iss := self.provisioner cfg
  sub := cfg.hostname
  aud := self.audience cfg base
  sans := [cfg.hostname]
  iat := now
  nbf := now
  exp := now + 300 * 1000000
  jti

/-- `verify_ctx`, before it is made. -/
def trust (cfg : InternalX5cConfig) : Except Exc Trust :=
  if cfg.rootBundlePath.truthy then .ok (.cafile cfg.rootBundlePath)
  else if self.defaults.smallstepRootPem ≠ "" then .ok (.cadata self.defaults.smallstepRootPem)
  else .error ⟨.runtimeError, "no smallstep root for step-ca TLS verify — set smallstep_root_pem " ++
    "in the org config (httpx does not use the OS trust store)"⟩

/-- What is made of the response. -/
def issued (resp : SignResponse) (newKey : K) : Except Exc (Text × Text) :=
  if resp.statusCode ≠ 200 ∧ resp.statusCode ≠ 201 then
    .error ⟨.runtimeError, "step-ca returned " ++ toString resp.statusCode ++ ": " ++
      String.ofList (Words.strip (fun c => CodePoint.isSpace (.scalar c)) resp.text.toList)⟩
  else do
    let chainPem ← resp.chainPem
    let keyPem ← self.privatePem newKey
    return (.ofString chainPem, keyPem)

/-- `_obtain`. -/
def obtain : Program Exc (x5cSig K) (Text × Text) := do
  let cfg ← ofExcept self.cfg
  if !(self.caUrl cfg).truthy || !(self.provisioner cfg).truthy then
    raise ⟨.runtimeError, "internal flow needs a ca_url and provisioner (configure them on " ++
      "the flow or in the org config)"⟩
  else
    -- 1. the x5c credential
    let chain ← ofExcept (self.loadChain (← supply (.readFile (self.x5cCertPath cfg))))
    let x5cKey ← ofExcept (self.loadPrivateKey (← supply (.readFile (self.x5cKeyPath cfg))))
    -- 2. service key and request
    let newKey ← supply .generateKey
    let csr ← supply (.signCsr newKey cfg.hostname [cfg.hostname])
    -- 3. audience
    let base ← ofExcept (self.url (self.caUrl cfg))
    let url ← ofExcept (self.postUrl cfg)
    -- 4. one-time token
    let now ← supply .utcnow
    let jti ← supply .uuid4
    let token ← supply (.encodeToken (self.claims cfg base now jti) x5cKey (self.algForKey x5cKey)
      (chain.map b64encode))
    -- 5. the POST
    let verify ← ofExcept (self.trust cfg)
    supply (.createContext verify)
    let resp ← supply (.post verify url csr token)
    -- 6. what was issued, with the service key
    ofExcept (self.issued resp newKey)

/-! ### Where everything comes from -/

variable {self} {log log' : List (Exchange Exc (x5cSig K))}

/-- All that a POST is made of, and where each part of it has come from. -/
structure Supplication (runner : InternalX5cRunner K) (log : List (Exchange Exc (x5cSig K))) where
  cfg : InternalX5cConfig
  configured : runner.cfg = .ok cfg
  /-- The chain of the machine, which is shown. -/
  certPem : Bytes
  certRead : Answered log (.readFile (runner.x5cCertPath cfg)) certPem
  chain : List Bytes
  chainLoaded : runner.loadChain certPem = .ok chain
  /-- The key of the machine, which signs the token. -/
  keyPem : Bytes
  keyRead : Answered log (.readFile (runner.x5cKeyPath cfg)) keyPem
  x5cKey : K
  keyLoaded : runner.loadPrivateKey keyPem = .ok x5cKey
  /-- The key of the service, which signs the request. -/
  newKey : K
  generated : Answered log .generateKey newKey
  csr : String
  csrSigned : Answered log (.signCsr newKey cfg.hostname [cfg.hostname]) csr
  base : HttpxUrl
  parsed : runner.url (runner.caUrl cfg) = .ok base
  url : String
  addressed : runner.postUrl cfg = .ok url
  now : ℤ
  clock : Answered log .utcnow now
  jti : String
  drawn : Answered log .uuid4 jti
  token : String
  tokenSigned : Answered log (.encodeToken (runner.claims cfg base now jti) x5cKey
    (runner.algForKey x5cKey) (chain.map b64encode)) token
  /-- What the CA has to prove itself against. -/
  verify : Trust
  trusted : runner.trust cfg = .ok verify
  context : Answered log (.createContext verify) ()

namespace Supplication

/-- What is sent. -/
def request (s : self.Supplication log) : X5cOp K := .post s.verify s.url s.csr s.token

/-- Later it is still there. -/
def mono (s : self.Supplication log) (hmore : log <+: log') : self.Supplication log' :=
  { s with
    certRead := s.certRead.mono hmore
    keyRead := s.keyRead.mono hmore
    generated := s.generated.mono hmore
    csrSigned := s.csrSigned.mono hmore
    clock := s.clock.mono hmore
    drawn := s.drawn.mono hmore
    tokenSigned := s.tokenSigned.mono hmore
    context := s.context.mono hmore }

end Supplication

/-- The calls that may be made, after those before. A key signs a request only if it was generated,
and a token only if it was read from where the machine keeps its key. What is sent is a supplication,
and it is sent once. -/
def MayAsk (self : InternalX5cRunner K) (log : List (Exchange Exc (x5cSig K))) (o : X5cOp K) : Prop :=
  match o with
  | .signCsr key _ _ => Answered log .generateKey key
  | .encodeToken _ key _ _ => ∃ cfg keyPem, self.cfg = .ok cfg ∧
    Answered log (.readFile (self.x5cKeyPath cfg)) keyPem ∧ self.loadPrivateKey keyPem = .ok key
  | .post .. => (∃ s : self.Supplication log, o = s.request) ∧ ∀ x ∈ log, x.op.sends = false
  | _ => True

/-- Where a result comes from: the chain from a response that grants the supplication, and the key
from the one that the request was signed with. -/
def Issued (self : InternalX5cRunner K) (log : List (Exchange Exc (x5cSig K)))
    (pair : Text × Text) : Prop :=
  ∃ (s : self.Supplication log) (resp : SignResponse) (chainPem : String),
    Answered log s.request resp ∧ (resp.statusCode = 200 ∨ resp.statusCode = 201) ∧
      resp.chainPem = .ok chainPem ∧ pair.1 = .ofString chainPem ∧
        self.privatePem s.newKey = .ok pair.2

theorem issued_eq_ok {resp : SignResponse} {newKey : K} {pair : Text × Text}
    (h : self.issued resp newKey = .ok pair) :
    (resp.statusCode = 200 ∨ resp.statusCode = 201) ∧ ∃ chainPem, resp.chainPem = .ok chainPem ∧
      pair.1 = .ofString chainPem ∧ self.privatePem newKey = .ok pair.2 := by
  rw [issued] at h
  split at h
  · cases h
  · next hstatus =>
    obtain ⟨chainPem, hchain, h⟩ := except_bind_eq_ok.mp h
    obtain ⟨keyPem, hkey, h⟩ := except_bind_eq_ok.mp h
    cases h
    have hgranted : resp.statusCode = 200 ∨ resp.statusCode = 201 := by omega
    exact ⟨hgranted, chainPem, hchain, rfl, hkey⟩

/-- The POST, once everything for it is there. -/
theorem keeps_send (s : self.Supplication log) (hfirst : ∀ x ∈ log, x.op.sends = false) :
    Keeps self.MayAsk (fun log r => ∀ pair, r = .ok pair → self.Issued log pair) log
      (supply (.post s.verify s.url s.csr s.token) >>= fun resp =>
        ofExcept (self.issued resp s.newKey)) := by
  refine keeps_perform_bind ⟨⟨s, rfl⟩, hfirst⟩ (fun resp => ?_) fun e pair h => (by cases h)
  refine keeps_ofExcept fun pair hpair => ?_
  obtain ⟨hstatus, chainPem, hchain, hcert, hkey⟩ := issued_eq_ok hpair
  exact ⟨s.mono (List.prefix_append ..), resp, chainPem, answered_last _ _ _, hstatus, hchain, hcert, hkey⟩

/-- Every call of an issuance may be made, and its result comes from where it should. -/
theorem keeps_obtain (self : InternalX5cRunner K) :
    Keeps self.MayAsk (fun log r => ∀ pair, r = .ok pair → self.Issued log pair) [] self.obtain := by
  have herror : ∀ (log : List (Exchange Exc (x5cSig K))) (e : Exc) (pair : Text × Text),
      (Except.error e : Except Exc (Text × Text)) = .ok pair → self.Issued log pair :=
    fun _ _ _ h => by cases h
  refine keeps_ofExcept_bind (fun cfg hcfg => ?_) fun e _ => herror _ e
  split
  · exact herror _ _
  refine keeps_perform_bind trivial (fun certPem => ?_) fun e => herror _ e
  refine keeps_ofExcept_bind (fun chain hchain => ?_) fun e _ => herror _ e
  refine keeps_perform_bind trivial (fun keyPem => ?_) fun e => herror _ e
  refine keeps_ofExcept_bind (fun x5cKey hkey => ?_) fun e _ => herror _ e
  refine keeps_perform_bind trivial (fun newKey => ?_) fun e => herror _ e
  refine keeps_perform_bind (answered_last _ _ _) (fun csr => ?_) fun e => herror _ e
  refine keeps_ofExcept_bind (fun base hbase => ?_) fun e _ => herror _ e
  refine keeps_ofExcept_bind (fun url hurl => ?_) fun e _ => herror _ e
  refine keeps_perform_bind trivial (fun now => ?_) fun e => herror _ e
  refine keeps_perform_bind trivial (fun jti => ?_) fun e => herror _ e
  refine keeps_perform_bind ⟨cfg, keyPem, hcfg, by simp [Answered], hkey⟩ (fun token => ?_)
    fun e => herror _ e
  refine keeps_ofExcept_bind (fun verify hverify => ?_) fun e _ => herror _ e
  refine keeps_perform_bind trivial (fun _ => ?_) fun e => herror _ e
  exact keeps_send {
    cfg, configured := hcfg, certPem, certRead := by simp [Answered], chain, chainLoaded := hchain
    keyPem, keyRead := by simp [Answered], x5cKey, keyLoaded := hkey
    newKey, generated := by simp [Answered], csr, csrSigned := by simp [Answered]
    base, parsed := hbase, url, addressed := hurl
    now, clock := by simp [Answered], jti, drawn := by simp [Answered]
    token, tokenSigned := by simp [Answered]
    verify, trusted := hverify, context := answered_last _ _ _ } (by simp [X5cOp.sends])

/-- **Pairs on disk.** A run of an internal flow that returns has left the host and the network alone,
or the certificate file holds the chain that the CA has granted in this run, and the key file the key
that the CA has granted it for. -/
theorem pair_on_disk {τ : Type} (self : InternalX5cRunner K) (env : HostEnv)
    (net : Handler Exc (x5cSig K) τ) (w w' : Host) (t t' : τ) (r : IssueResult)
    (h : eval (online env net) (self.runOnline self.obtain) (w, t) = (.ok r, w', t')) :
    (w' = w ∧ t' = t ∧ r.changed = false) ∨ ∃ certPem keyPem,
      self.Issued (dialogue net self.obtain t) (certPem, keyPem) ∧
        Holds (self.certBytes w') certPem ∧ Holds (self.keyBytes w') keyPem := by
  rcases FlowRunner.runOnline_eq_ok h with hkept | ⟨certPem, keyPem, hobtain, hholds⟩
  · exact .inl hkept
  · have hissued := self.keeps_obtain.eval (h := net) (s := t) _ (congrArg Prod.fst hobtain)
    exact .inr ⟨certPem, keyPem, hissued, hholds⟩

/-- A runner for a flow that leaves everything to the organization. -/
def demoInternal : InternalX5cRunner String where
  flow := { demoFlow "app" with
    config := .internal ⟨.str "", .str "", .str "", .str "", .str "", .str "app",
      .arr [.str "app"]⟩ }
  osFamily := "debian"
  loadPem b :=
    if b = "A".toByteArray then .ok [⟨100 * day, 200 * day, .ok (some [.dns "app"])⟩]
    else .error ⟨.valueError, "Unable to load PEM file"⟩
  defaults := ⟨"ROOT", "/m.pem", "/m.key", "https://ca.example.com/", "agents", ""⟩
  str _ := ""
  url _ := .ok ⟨"https", "ca.example.com"⟩
  loadChain b := .ok [b]
  loadPrivateKey _ := .ok "MACHINE"
  curveBits _ := some 256
  privatePem key := .ok (.ofString key)

/-- A CA that grants what it is asked for. -/
def demoCa : Handler Exc (x5cSig String) Unit
  | .readFile _, u => (.ok "PEM".toByteArray, u)
  | .generateKey, u => (.ok "SERVICE", u)
  | .signCsr _ _ _, u => (.ok "CSR", u)
  | .utcnow, u => (.ok (150 * day), u)
  | .uuid4, u => (.ok "00", u)
  | .encodeToken _ _ _ _, u => (.ok "TOKEN", u)
  | .createContext _, u => (.ok (), u)
  | .post _ _ _ _, u => (.ok ⟨201, "", .ok (.obj [("crt", .str "A")])⟩, u)

theorem pair_on_disk_demo :
    ∃ certPem keyPem, demoInternal.Issued (dialogue demoCa demoInternal.obtain ()) (certPem, keyPem) ∧
      Holds (demoInternal.certBytes (eval (online (demoEnv (150 * day) (.error ⟨.other, ""⟩)) demoCa)
        (demoInternal.runOnline demoInternal.obtain) (noFiles, ())).2.1) certPem ∧
      Holds (demoInternal.keyBytes (eval (online (demoEnv (150 * day) (.error ⟨.other, ""⟩)) demoCa)
        (demoInternal.runOnline demoInternal.obtain) (noFiles, ())).2.1) keyPem := by
  have hrun : (eval (online (demoEnv (150 * day) (.error ⟨.other, ""⟩)) demoCa)
      (demoInternal.runOnline demoInternal.obtain) (noFiles, ())).1 =
        .ok ⟨"internal", 100 * day, 200 * day, ["app"], true⟩ := by decide
  rcases pair_on_disk demoInternal _ demoCa noFiles _ () () _ (Prod.ext hrun rfl) with h | h
  · exact absurd h.2.2 (by decide)
  · exact h

end InternalX5cRunner

end NextepAgent
