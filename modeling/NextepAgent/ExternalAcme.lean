import NextepAgent.Effect.Dialogue
import NextepAgent.DnsFrame
import NextepAgent.FlowRunner

/-!
# The external flow

A certificate from an ACME CA, for names that are proved over DNS. One issuance is one session of
acmeow: a client is made, the account is had, an order is created, its challenges are completed, it
is finalized, and the certificate is fetched. Whatever happens after the account was had, the client
is closed.

## acmeow

It is a third-party package. Every call to it is an operation here, which may answer anything or
raise. What it keeps for itself below `storage_path` does not show in them. While it completes the
challenges it calls the agent back, as often and in whatever order it likes, so what it does with the
callbacks is a program over them, and any program will do.

## Main definitions

* `AcmeOp`, `acmeSig` — the calls to acmeow
* `AcmeClient_`, `ExternalAcmeRunner.obtain`
* `AcmeClient_.Ordered`, `AcmeClient_.Session` — what may be done of an order, and in a session
* `ExternalAcmeRunner.Undirected`, `Directed` — whether the configuration says whom to ask
* `netSig`, `ExternalAcmeRunner.callBack` — the calls to acmeow and to the DNS provider together

## Main results

* `ExternalAcmeRunner.session_of_obtain` — no call, or a session
* `ExternalAcmeRunner.zone_spared` — the rest of the zone, at every moment of an issuance
-/

namespace NextepAgent

open Effect Program

/-! ### acmeow -/

/-- `KeyType`, of which the agent uses one. -/
inductive KeyType
  | ec256
  deriving DecidableEq

/-- What the TLS certificate of the CA is verified against. -/
inductive VerifySsl
  /-- `True`: whatever `requests` trusts. -/
  | defaultTrust
  | bundle (ca : String)
  deriving DecidableEq

/-- The calls to acmeow. -/
inductive AcmeOp
  /-- `AcmeClient(..)`. -/
  | newClient (serverUrl email : Json) (storagePath : String) (verifySsl : VerifySsl)
  | createAccount
  | createOrder (identifiers : List Json)
  /-- With a `CallbackDnsHandler` of this configuration. -/
  | completeChallenges (handler : DnsProviderConfig) (verifyDns : Bool)
  | finalizeOrder (keyType : KeyType)
  | getCertificate
  | close
  deriving DecidableEq

/-- What each call returns. -/
abbrev AcmeOp.Ans : AcmeOp → Type
  | .newClient _ _ _ _ => Unit
  | .createAccount => Unit
  | .createOrder _ => Unit
  | .completeChallenges _ _ => Unit
  | .finalizeOrder _ => Unit
  | .getCertificate => Text × Option Text
  | .close => Unit

/-- The calls to acmeow, as a signature. -/
abbrev acmeSig : Sig := ⟨AcmeOp, AcmeOp.Ans⟩

/-- A program of the session. -/
abbrev Acme (α : Type) : Type := Program Exc acmeSig α

/-- One call. -/
def request (o : AcmeOp) : Acme o.Ans := @Program.perform Exc acmeSig o

/-! ### The session -/

/-- `LETSENCRYPT_URL`. -/
def letsencryptUrl : String := "https://acme-v02.api.letsencrypt.org/directory"

/-- `LETSENCRYPT_STAGING_URL`. -/
def letsencryptStagingUrl : String := "https://acme-staging-v02.api.letsencrypt.org/directory"

/-- A session of acmeow for one issuance. -/
structure AcmeClient_ where
  serverUrl : Json
  email : Json
  storagePath : String
  keyType : KeyType
  dnsProvider : Decoded DnsProviderConfig
  caBundle : Option String
  /-- `Identifier.dns`. -/
  identifier : Json → Except Exc Json

namespace AcmeClient_

variable (self : AcmeClient_)

/-- `self._ca_bundle if self._ca_bundle else True`. -/
def verifySsl : VerifySsl :=
  match self.caBundle with
  | some ca => if ca ≠ "" then .bundle ca else .defaultTrust
  | none => .defaultTrust

/-- `start`, which leaves `_client` set. -/
def start : Acme Bool := do
  request (.newClient self.serverUrl self.email self.storagePath self.verifySsl)
  request .createAccount
  return true

/-- `client`. -/
def client (started : Bool) : Except Exc Unit :=
  if started then .ok () else .error ⟨.runtimeError, "AcmeClient_ has not been started"⟩

/-- `dns_handler`. A configuration that was left raw has no `propagation_delay`. -/
def dnsHandler : Except Exc DnsProviderConfig :=
  match self.dnsProvider with
  | .of config => .ok config
  | .raw v =>
    if v.truthy then .error ⟨.other, "object has no attribute 'propagation_delay'"⟩
    else .error ⟨.runtimeError,
      "No dns_provider configured — pass a handler explicitly or set dns_provider"⟩

/-- `[Identifier.dns(d) for d in domains]`. -/
def identifiers (domains : Json) : Except Exc (List Json) := do
  (← domains.items).mapM self.identifier

/-- `issue`. -/
def issue (started : Bool) (domains : Json) : Acme (Text × Option Text) := do
  let handler ← ofExcept self.dnsHandler
  ofExcept (client started)
  let identifiers ← ofExcept (self.identifiers domains)
  request (.createOrder identifiers)
  request (.completeChallenges handler true)
  request (.finalizeOrder self.keyType)
  request .getCertificate

/-- `stop`. -/
def stop (started : Bool) : Acme Unit := if started then request .close else return ()

end AcmeClient_

/-! ### The runner -/

/-- A runner for external flows. -/
structure ExternalAcmeRunner extends FlowRunner where
  org : Option AgentOrganizationConfig
  defaults : BootstrapDefaults
  /-- `str(v)` of a value that is not a string. -/
  str : Json → String
  /-- `repr(v)`. -/
  repr : Json → String
  /-- `Identifier.dns`. -/
  identifier : Json → Except Exc Json

namespace ExternalAcmeRunner

variable (self : ExternalAcmeRunner)

/-- `_cfg`. -/
def cfg : Except Exc ExternalAcmeConfig :=
  match self.flow.config with
  | .external cfg => .ok cfg
  | .internal _ => .error ⟨.assertionError, ""⟩

/-- The contact of the account. -/
def email : Json :=
  (match self.org with
    | some org => org.acmeAdminEmail
    | none => .str "").orStr self.defaults.acmeAdminEmail

/-- The directory of the CA, and the bundle its TLS certificate is verified against. -/
def directory (cfg : ExternalAcmeConfig) : Except Exc (Json × Option String) :=
  match cfg.acmeProvider with
  | .of .internalAcme =>
    match self.org with
    | some org =>
      if org.acmeDirectoryUrl.truthy then
        .ok (org.acmeDirectoryUrl,
          if self.defaults.smallstepRootPem ≠ "" then some self.defaults.smallstepRootPem else none)
      else .error ⟨.valueError, "internal-acme requires org.acme_directory_url"⟩
    | none => .error ⟨.valueError, "internal-acme requires org.acme_directory_url"⟩
  | .of .letsencryptStaging => .ok (.str letsencryptStagingUrl, none)
  | _ => .ok (.str letsencryptUrl, none)

/-- The session of an issuance. -/
def session (cfg : ExternalAcmeConfig) (directory : Json × Option String) : AcmeClient_ where
  serverUrl := directory.1
  email := self.email
  storagePath := cfg.accountDir.format self.str
  keyType := .ec256
  dnsProvider := cfg.dnsProviderConfig
  caBundle := directory.2
  identifier := self.identifier

/-- The key has to be there as well. -/
def keyed : Text × Option Text → Except Exc (Text × Text)
  | (certPem, some keyPem) => .ok (certPem, keyPem)
  | (_, none) => .error ⟨.runtimeError, "ACME returned no private key"⟩

/-- The `try` and everything after it. -/
def certify (client : AcmeClient_) (domains : Json) : Acme (Text × Text) := do
  let started ← client.start
  let issued ← (client.issue started domains).withFinally (AcmeClient_.stop started)
  ofExcept (keyed issued)

/-- `_obtain`. -/
def obtain : Acme (Text × Text) := do
  let cfg ← ofExcept self.cfg
  if cfg.dnsProviderConfig = .raw .null then
    raise ⟨.valueError, "external flow requires a dns_provider_config"⟩
  else
    let directory ← ofExcept (self.directory cfg)
    certify (self.session cfg directory) cfg.domains

end ExternalAcmeRunner

/-! ### Sessions -/

namespace AcmeClient_

/-- Every call may be made, when only the end is of interest. -/
def anyCall (_ : List (Exchange Exc acmeSig)) (_ : AcmeOp) : Prop := True

/-- The steps of an order, in order. -/
def order (client : AcmeClient_) (handler : DnsProviderConfig) (identifiers : List Json) :
    List AcmeOp :=
  [.createOrder identifiers, .completeChallenges handler true, .finalizeOrder client.keyType,
    .getCertificate]

/-- There is no handler for the challenges, or a domain is none. -/
def Unordered (client : AcmeClient_) (domains : Json) (e : Exc) : Prop :=
  client.dnsHandler = .error e ∨ client.identifiers domains = .error e

/-- What was done of an order: nothing, where it could not be begun, or its steps in turn, up to the
first that failed. All of them, if it came to a result. -/
structure Ordered (client : AcmeClient_) (domains : Json) (done : List (Exchange Exc acmeSig))
    (r : Except Exc (Text × Option Text)) : Prop where
  steps : (done = [] ∧ ∃ e, r = .error e ∧ client.Unordered domains e) ∨
    ∃ handler identifiers, client.dnsHandler = .ok handler ∧
      client.identifiers domains = .ok identifiers ∧ InTurn (client.order handler identifiers) done
  failed : ∀ e, r = .error e → done ≠ [] → ∃ o, ⟨o, .error e⟩ ∈ done
  issued : ∀ issued, r = .ok issued → done.length = 4 ∧ Answered done .getCertificate issued

variable {client : AcmeClient_} {domains : Json} {log : List (Exchange Exc acmeSig)}

/-- What `issue` does is an order, or the beginning of one. -/
theorem keeps_issue :
    Keeps anyCall (fun log' r => ∃ done, log' = log ++ done ∧ client.Ordered domains done r) log
      (client.issue true domains) := by
  have hnothing : ∀ e, client.Unordered domains e →
      ∃ done, log = log ++ done ∧ client.Ordered domains done (.error e) := fun e he =>
    ⟨[], (List.append_nil log).symm, .inl ⟨rfl, e, rfl, he⟩, fun _ _ h => absurd rfl h,
      fun _ h => by cases h⟩
  refine keeps_ofExcept_bind (fun handler hhandler => ?_) fun e he => hnothing e (.inl he)
  refine keeps_ofExcept_bind (fun _ _ => ?_) fun e he => by cases he
  refine keeps_ofExcept_bind (fun identifiers hids => ?_) fun e he => hnothing e (.inr he)
  -- the steps up to one that fails with `e`
  have hfailed : ∀ (done : List (Exchange Exc acmeSig)) (o : AcmeOp) (e : Exc),
      InTurn (client.order handler identifiers) done → ⟨o, .error e⟩ ∈ done →
        client.Ordered domains done (.error e) := fun done o e hturn hmem =>
    ⟨.inr ⟨handler, identifiers, hhandler, hids, hturn⟩,
      fun e' he _ => ⟨o, by cases he; exact hmem⟩, fun _ h => by cases h⟩
  refine keeps_perform_bind trivial (fun _ => ?_) fun e => ⟨_, rfl, ?_⟩
  · refine keeps_perform_bind trivial (fun _ => ?_) fun e => ⟨_, List.append_assoc .., ?_⟩
    · refine keeps_perform_bind trivial (fun _ => ?_) fun e =>
        ⟨_, by rw [List.append_assoc, List.append_assoc], ?_⟩
      · refine ⟨trivial, fun r => keeps_ofExcept
          ⟨_, by rw [List.append_assoc, List.append_assoc, List.append_assoc], ?_⟩⟩
        cases r with
        | error e => exact hfailed _ .getCertificate e (.next (.next (.next .failed))) (by simp)
        | ok issued =>
          refine ⟨.inr ⟨handler, identifiers, hhandler, hids,
            .next (.next (.next (.next .done)))⟩, fun e he => ?_, fun issued' h => ?_⟩
          · cases he
          · cases h
            exact ⟨rfl, by simp [Answered]⟩
      · exact hfailed _ (.finalizeOrder client.keyType) e (.next (.next .failed)) (by simp)
    · exact hfailed _ (.completeChallenges handler true) e (.next .failed) (by simp)
  · exact hfailed _ (.createOrder identifiers) e .failed (by simp)

/-- How a session begins. -/
def opening (client : AcmeClient_) : AcmeOp :=
  .newClient client.serverUrl client.email client.storagePath client.verifySsl

/-- The dialogue of a session with an account, up to its order. -/
def opened (client : AcmeClient_) : List (Exchange Exc acmeSig) :=
  [⟨client.opening, .ok ()⟩, ⟨.createAccount, .ok ()⟩]

theorem keeps_start :
    Keeps anyCall (fun log r => (r = .ok true ∧ log = client.opened) ∨
      ∃ e, r = .error e ∧ (log = [⟨client.opening, .error e⟩] ∨
        log = [⟨client.opening, .ok ()⟩, ⟨.createAccount, .error e⟩])) [] client.start :=
  keeps_perform_bind trivial
    (fun _ => keeps_perform_bind trivial (fun _ => .inl ⟨rfl, rfl⟩)
      fun e => .inr ⟨e, rfl, .inr rfl⟩)
    fun e => .inr ⟨e, rfl, .inl rfl⟩

/-- The order and the close. -/
theorem keeps_issue_closed :
    Keeps anyCall (fun log' r => ∃ done issued closed, client.Ordered domains done issued ∧
        log' = log ++ done ++ [⟨.close, closed⟩] ∧ r = closed.bind fun _ => issued) log
      ((client.issue true domains).withFinally (stop true)) := by
  refine keeps_issue.resume fun log' r hr => ?_
  obtain ⟨done, rfl, hdone⟩ := hr
  refine keeps_perform_bind trivial (fun _ => keeps_ofExcept ?_) fun e => ?_
  · exact ⟨done, r, .ok (), hdone, rfl, rfl⟩
  · exact ⟨done, r, .error e, hdone, rfl, rfl⟩

/-- A session, once it is known whom to ask. -/
structure Session (client : AcmeClient_) (domains : Json) (log : List (Exchange Exc acmeSig))
    (r : Except Exc (Text × Text)) : Prop where
  /-- Without an account nothing more is called, not even to close the client. -/
  refused : ¬ Answered log .createAccount () →
    InTurn [client.opening, AcmeOp.createAccount] log ∧
      ∃ o e, ⟨o, .error e⟩ ∈ log ∧ r = .error e
  /-- With one, the client is closed at the very end, whatever happened to the order. If it closes
  without an error, the session ends as the order does. -/
  closed : Answered log .createAccount () → ∃ done issued closed,
    client.Ordered domains done issued ∧ log = client.opened ++ done ++ [⟨.close, closed⟩] ∧
      r = closed.bind fun _ => issued.bind ExternalAcmeRunner.keyed
  /-- What comes of it was fetched, and the client has closed without an error. -/
  result : ∀ certPem keyPem, r = .ok (certPem, keyPem) →
    Answered log .getCertificate (certPem, some keyPem) ∧ Answered log .close ()

end AcmeClient_

namespace ExternalAcmeRunner

open AcmeClient_

variable {self : ExternalAcmeRunner} {client : AcmeClient_} {domains : Json}

theorem keyed_eq_ok {issued : Text × Option Text} {certPem keyPem : Text}
    (h : keyed issued = .ok (certPem, keyPem)) : issued = (certPem, some keyPem) := by
  obtain ⟨cert, key⟩ := issued
  cases key with
  | none => cases h
  | some key =>
    cases h
    rfl

/-- A client that has been opened is closed. -/
theorem session_of_closed {done : List (Exchange Exc acmeSig)}
    {issued : Except Exc (Text × Option Text)} {closed : Except Exc Unit}
    (hdone : client.Ordered domains done issued) :
    client.Session domains (client.opened ++ done ++ [⟨.close, closed⟩])
      (closed.bind fun _ => issued.bind keyed) where
  refused h := by
    refine absurd ?_ h
    simp [Answered, opened]
  closed _ := ⟨done, issued, closed, hdone, rfl, rfl⟩
  result certPem keyPem h := by
    cases closed with
    | error e => cases h
    | ok _ =>
      cases issued with
      | error e => cases h
      | ok issued =>
        have hissued := keyed_eq_ok h
        subst hissued
        have hget : Answered done .getCertificate (certPem, some keyPem) := (hdone.issued _ rfl).2
        refine ⟨?_, answered_last _ _ _⟩
        exact List.mem_append_left _ (List.mem_append_right _ hget)

/-- A client that has not is not. -/
theorem session_of_not_opened {e : Exc} {log : List (Exchange Exc acmeSig)}
    (hlog : log = [⟨client.opening, .error e⟩] ∨
      log = [⟨client.opening, .ok ()⟩, ⟨.createAccount, .error e⟩]) :
    client.Session domains log (.error e) where
  refused _ := by
    rcases hlog with rfl | rfl
    · exact ⟨.failed, client.opening, e, by simp, rfl⟩
    · exact ⟨.next .failed, .createAccount, e, by simp, rfl⟩
  closed h := by
    rcases hlog with rfl | rfl
    · simp [Answered, opening] at h
    · simp [Answered, opening] at h
  result _ _ h := by cases h

theorem keeps_certify :
    Keeps anyCall (fun log r => client.Session domains log r) [] (certify client domains) := by
  refine keeps_start.bind (fun log started h => ?_) fun log e h => ?_
  · rcases h with ⟨hstarted, rfl⟩ | ⟨e, he, -⟩
    · obtain rfl : started = true := Except.ok.inj hstarted
      refine keeps_issue_closed.bind (fun log issued h => ?_) fun log e h => ?_
      · obtain ⟨done, r, closed, hdone, rfl, hr⟩ := h
        have hsession : client.Session domains (client.opened ++ done ++ [⟨.close, closed⟩])
            (closed.bind fun _ => r.bind keyed) := session_of_closed hdone
        cases closed with
        | error e => cases hr
        | ok _ =>
          obtain rfl : Except.ok issued = r := hr
          exact keeps_ofExcept hsession
      · obtain ⟨done, r, closed, hdone, rfl, hr⟩ := h
        have hsession : client.Session domains (client.opened ++ done ++ [⟨.close, closed⟩])
            (closed.bind fun _ => r.bind keyed) := session_of_closed hdone
        cases closed with
        | error e' =>
          cases hr
          exact hsession
        | ok _ =>
          obtain rfl : Except.error e = r := hr
          exact hsession
    · cases he
  · rcases h with ⟨he, -⟩ | ⟨e', he, hlog⟩
    · cases he
    · cases he
      exact session_of_not_opened hlog

/-- The configuration does not say whom to ask, or how to prove a name: it is none of an external flow,
it has no DNS provider, or the CA has no directory. -/
def Undirected (self : ExternalAcmeRunner) (e : Exc) : Prop :=
  self.cfg = .error e ∨ ∃ cfg, self.cfg = .ok cfg ∧
    (cfg.dnsProviderConfig = .raw .null ∧
        e = ⟨.valueError, "external flow requires a dns_provider_config"⟩ ∨
      cfg.dnsProviderConfig ≠ .raw .null ∧ self.directory cfg = .error e)

/-- The configuration says both. -/
structure Directed (self : ExternalAcmeRunner) (cfg : ExternalAcmeConfig)
    (directory : Json × Option String) : Prop where
  external : self.cfg = .ok cfg
  provider : cfg.dnsProviderConfig ≠ .raw .null
  asks : self.directory cfg = .ok directory

/-- An issuance calls nothing, or is a session. -/
theorem keeps_obtain (self : ExternalAcmeRunner) :
    Keeps anyCall (fun log r => (∃ e, self.Undirected e ∧ log = [] ∧ r = .error e) ∨
      ∃ cfg directory, self.Directed cfg directory ∧
        (self.session cfg directory).Session cfg.domains log r) [] self.obtain := by
  refine keeps_ofExcept_bind (fun cfg hcfg => ?_) fun e he => .inl ⟨e, .inl he, rfl, rfl⟩
  split
  · next hnull => exact .inl ⟨_, .inr ⟨cfg, hcfg, .inl ⟨hnull, rfl⟩⟩, rfl, rfl⟩
  · next hnull =>
    refine keeps_ofExcept_bind (fun directory hdirectory => ?_) fun e he =>
      .inl ⟨e, .inr ⟨cfg, hcfg, .inr ⟨hnull, he⟩⟩, rfl, rfl⟩
    exact keeps_certify.mono fun log r hr => .inr ⟨cfg, directory, ⟨hcfg, hnull, hdirectory⟩, hr⟩

/-- **Sessions.** Whatever acmeow answers, an issuance calls nothing at all and fails, just where the
configuration does not say whom to ask, and is one session elsewhere. Its order is made step by step up
to the first failure, and only with an account. And a client with an account is closed, once and at the
very end. -/
theorem session_of_obtain {σ : Type} (self : ExternalAcmeRunner) (h : Handler Exc acmeSig σ) (s : σ) :
    (∃ e, self.Undirected e ∧ dialogue h self.obtain s = [] ∧
        (eval h self.obtain s).1 = .error e) ∨
      ∃ cfg directory, self.Directed cfg directory ∧
        (self.session cfg directory).Session cfg.domains (dialogue h self.obtain s)
          (eval h self.obtain s).1 :=
  self.keeps_obtain.eval

/-- What an issuance returns was fetched, and the client was closed. -/
theorem fetched_of_obtain {σ : Type} (self : ExternalAcmeRunner) (h : Handler Exc acmeSig σ) (s : σ)
    {pair : Text × Text} (hpair : (eval h self.obtain s).1 = .ok pair) :
    Answered (dialogue h self.obtain s) .getCertificate (pair.1, some pair.2) ∧
      Answered (dialogue h self.obtain s) .close () := by
  rcases self.keeps_obtain.eval (h := h) (s := s) with ⟨e, -, -, he⟩ | ⟨cfg, directory, -, hsession⟩
  · cases he.symm.trans hpair
  · exact hsession.result _ _ hpair

end ExternalAcmeRunner

/-! ### The zone -/

/-- A callback, and what the DNS provider does during it. -/
abbrev callbackSig : Sig := ⟨DnsCall × LexiconEnv, fun _ => Unit⟩

/-- The calls to acmeow, and those to the DNS provider. -/
inductive NetOp
  | acme (o : AcmeOp)
  | dns (o : DnsOp) (env : LexiconEnv)

/-- What each returns. -/
abbrev NetOp.Ans : NetOp → Type
  | .acme o => o.Ans
  | .dns o _ => o.Ans

/-- All calls of an issuance, as a signature. -/
abbrev netSig : Sig := ⟨NetOp, NetOp.Ans⟩

/-- The calls against acmeow and a zone. -/
def net {τ : Type} (h : Handler Exc acmeSig τ) (zone : String) : Handler Exc netSig (τ × Zone)
  | .acme o, (t, z) => ((h o t).1, (h o t).2, z)
  | .dns o env, (t, z) => ((lexicon zone env o z).1, t, (lexicon zone env o z).2)

namespace ExternalAcmeRunner

/-- One operation of a callback. -/
def relayDns (env : LexiconEnv) (o : dnsSig.Op) : Program Exc netSig (dnsSig.Ans o) :=
  @perform Exc netSig (.dns o env)

/-- How each call to acmeow goes on: while it completes the challenges, it calls back as `strategy`
says. -/
def callBack (self : ExternalAcmeRunner) (strategy : Program Exc callbackSig Unit) :
    (o : acmeSig.Op) → Program Exc netSig (acmeSig.Ans o)
  | .completeChallenges handler _ => strategy.translate fun (e : DnsCall × LexiconEnv) =>
    (e.1.run ⟨handler, self.str, self.repr⟩).translate (relayDns e.2)
  | o => @perform Exc netSig (.acme o)

variable {self : ExternalAcmeRunner} {τ : Type} {h : Handler Exc acmeSig τ} {zone : String}

/-- A callback sees the zone, and nothing else. -/
theorem always_callback {I : τ × Zone → Prop} {env : LexiconEnv} {p : Callback Unit} {t : τ}
    {z : Zone} (hp : Always (lexicon zone env) (fun z => I (t, z)) p z) :
    Always (net h zone) I (p.translate (relayDns env)) (t, z) := by
  induction p generalizing z with
  | ret a => exact hp
  | raise e => exact hp
  | call o k ih =>
    rw [translate_call, relayDns, perform_resume]
    exact ⟨hp.1, ih _ hp.2⟩

/-- Callbacks are made for the configured provider. -/
def Configured (self : ExternalAcmeRunner) (o : AcmeOp) : Prop :=
  ∀ handler verifyDns, o = .completeChallenges handler verifyDns →
    ∃ cfg, self.cfg = .ok cfg ∧ cfg.dnsProviderConfig = .of handler

theorem configured_of_ne {o : AcmeOp} (ho : ∀ handler verifyDns, o ≠ .completeChallenges handler verifyDns) :
    self.Configured o := fun handler verifyDns h => absurd h (ho handler verifyDns)

theorem dnsHandler_eq_ok {client : AcmeClient_} {handler : DnsProviderConfig}
    (hhandler : client.dnsHandler = .ok handler) : client.dnsProvider = .of handler := by
  rw [AcmeClient_.dnsHandler] at hhandler
  split at hhandler
  · next hof => rw [hof, Except.ok.inj hhandler]
  · split at hhandler <;> cases hhandler

theorem uses_obtain : self.obtain.Uses (fun _ _ => True) self.Configured := by
  refine uses_ofExcept_bind fun cfg hcfg => ?_
  split
  · trivial
  · refine uses_ofExcept_bind fun directory _ => ?_
    refine Uses.bind ?_ fun started => Uses.bind ?_ fun issued => uses_ofExcept _
    · exact (uses_perform (configured_of_ne (by simp))).bind fun _ =>
        (uses_perform (configured_of_ne (by simp))).bind fun _ => trivial
    · refine Uses.resume ?_ (ends_of_forall (fun _ => trivial) _) fun r _ => ?_
      · refine uses_ofExcept_bind fun handler hhandler => ?_
        refine uses_ofExcept_bind fun _ _ => uses_ofExcept_bind fun identifiers _ => ?_
        refine (uses_perform (configured_of_ne (by simp))).bind fun _ => Uses.bind ?_ fun _ =>
          (uses_perform (configured_of_ne (by simp))).bind fun _ =>
            uses_perform (configured_of_ne (by simp))
        refine uses_perform fun handler' verifyDns h => ⟨cfg, hcfg, ?_⟩
        cases h
        exact dnsHandler_eq_ok hhandler
      · refine Uses.bind ?_ fun _ => uses_ofExcept _
        rw [AcmeClient_.stop]
        split
        · exact uses_perform (configured_of_ne (by simp))
        · trivial

/-- **The rest of the zone.** However acmeow calls back, and whatever the provider makes of it, at
every moment of an issuance all records of the zone but the TXT records at the names it calls back
with are what they were. -/
theorem zone_spared (self : ExternalAcmeRunner) (strategy : Program Exc callbackSig Unit)
    (h : Handler Exc acmeSig τ) (zone : String) (names : List String) (t : τ) (z : Zone)
    (hzone : ∀ cfg config, self.cfg = .ok cfg → cfg.dnsProviderConfig = .of config →
      config.domain = .str zone)
    (hnames : strategy.Uses (fun _ _ => True) fun (e : DnsCall × LexiconEnv) =>
      InZone zone e.1.name ∧ e.1.name ∈ names) :
    Always (net h zone) (fun st => st.2.others names = z.others names)
      (self.obtain.translate (self.callBack strategy)) (t, z) := by
  refine always_translate (fun o ho st hst => ?_) rfl
  have hconfigured := uses_obtain.mem_trace (fun _ _ => trivial) o ho
  have hperform : Always (net h zone) (fun st => st.2.others names = z.others names)
      (@perform Exc netSig (.acme o)) st :=
    (always_perform (S := netSig) (NetOp.acme o) st).mpr ⟨hst, hst⟩
  cases o with
  | completeChallenges handler verifyDns =>
    obtain ⟨cfg, hcfg, hprovider⟩ := hconfigured handler verifyDns rfl
    refine always_translate (fun e he st hst => ?_) hst
    obtain ⟨hin, hmem⟩ := hnames.mem_trace (fun _ _ => trivial) e he
    obtain ⟨t', z'⟩ := st
    have hothers : Always (lexicon zone e.2) (fun z'' => z''.others names = z'.others names)
        (e.1.run ⟨handler, self.str, self.repr⟩) z' :=
      always_others (hzone cfg handler hcfg hprovider) hin hmem
    exact always_callback (hothers.mono fun z'' hz'' => hz''.trans hst)
  | _ => exact hperform

/-- A flow for one name, whose zone is at Cloudflare. -/
def demoExternal : ExternalAcmeRunner where
  flow := { demoFlow "app.example.com" with
    type := .external
    method := .dns01
    config := .external ⟨.of .letsencrypt, .arr [.str "app.example.com"], .of .cloudflare,
      .of cloudflareFactory.config, .str "/var/lib/nextep-agent/acme/accounts"⟩ }
  osFamily := "debian"
  loadPem _ := .error ⟨.valueError, "Unable to load PEM file"⟩
  org := none
  defaults := ⟨"", "", "", "", "", "admin@example.com"⟩
  str _ := ""
  repr _ := ""
  identifier := .ok

/-- acmeow, when everything works. -/
def demoAcme : Handler Exc acmeSig Unit
  | .getCertificate, u => (.ok (.ofString "CERT", some (.ofString "KEY")), u)
  | .newClient _ _ _ _, u | .createAccount, u | .createOrder _, u | .completeChallenges _ _, u
  | .finalizeOrder _, u | .close, u => (.ok (), u)

/-- The challenge is put up, and taking it down fails. -/
def demoStrategy : Program Exc callbackSig Unit := do
  @perform Exc callbackSig
    (.create "app.example.com" "_acme-challenge.app.example.com" "t", workingEnv)
  @perform Exc callbackSig (.delete "app.example.com" "_acme-challenge.app.example.com", lostEnv)

theorem zone_spared_demo :
    (eval (net demoAcme "example.com") (demoExternal.obtain.translate
        (demoExternal.callBack demoStrategy)) ((), staleZone)).2.2.others
          ["_acme-challenge.app.example.com"] = [⟨"1", "A", "app.example.com", "192.0.2.1"⟩] := by
  have hzone : ∀ cfg config, demoExternal.cfg = .ok cfg → cfg.dnsProviderConfig = .of config →
      config.domain = .str "example.com" := by
    intro cfg config hcfg hconfig
    cases hcfg
    cases hconfig
    rfl
  refine (zone_spared demoExternal demoStrategy demoAcme "example.com"
    ["_acme-challenge.app.example.com"] () staleZone hzone ?_).eval.trans (by decide)
  exact Uses.bind (uses_perform (by decide)) fun _ => uses_perform (by decide)

end ExternalAcmeRunner

end NextepAgent
