import NextepAgent.Config
import NextepAgent.Effect.Program
import Mathlib.Data.List.DropRight
import Mathlib.Data.List.Nodup

/-!
# The DNS callbacks

For an ACME order the agent has to publish a TXT record for each name. The records are put up and
taken down by two callbacks, which reach the provider through dns-lexicon.

## The provider

dns-lexicon is a third-party package. Against it stands a zone, a list of records whose identifiers
differ, and four operations: connecting, which authenticates, listing the records of a type at a
relative name, deleting one by its identifier, and creating one. Each may raise, before the provider
has done anything or after.

## Main definitions

* `DnsRecord`, `Zone` — records, and a zone of them
* `DnsOp`, `LexiconEnv`, `lexicon` — the operations, and what they do
* `DnsHandlerFactory.createRecord`, `deleteRecord` — the callbacks

## Main results

* `fqdn_relativeName` — the relative name leads back to the name
* `records_createRecord`, `records_deleteRecord` — what a successful callback leaves
-/

namespace NextepAgent

open Effect Program

/-! ### Zones -/

/-- A record of a zone. -/
structure DnsRecord where
  id : String
  type : String
  /-- The fully qualified name. -/
  name : String
  content : String
  deriving DecidableEq

/-- The records of a zone. No two of them have one identifier. -/
@[ext] structure Zone where
  records : List DnsRecord
  unique : (records.map DnsRecord.id).Nodup

namespace Zone

/-- The records of a type at a name. -/
def lookup (z : Zone) (rtype name : String) : List DnsRecord :=
  z.records.filter fun r => r.type = rtype ∧ r.name = name

/-- The TXT record set at a name. -/
def txt (z : Zone) (name : String) : List String := (z.lookup "TXT" name).map DnsRecord.content

/-- Without the record with this identifier. -/
def delete (z : Zone) (identifier : String) : Zone where
  records := z.records.filter fun r => r.id ≠ identifier
  unique := z.unique.sublist (List.filter_sublist.map _)

/-- With one record more, under an identifier that is free. -/
def add (z : Zone) (r : DnsRecord) (h : r.id ∉ z.records.map DnsRecord.id) : Zone where
  records := z.records ++ [r]
  unique := by
    rw [List.map_append, List.map_singleton]
    exact List.nodup_append.mpr ⟨z.unique, List.nodup_singleton _, fun a ha b hb hab =>
      h (List.mem_singleton.mp hb ▸ hab ▸ ha)⟩

end Zone

/-! ### dns-lexicon -/

/-- The operations of a lexicon client. -/
inductive DnsOp
  /-- `with Client(cfg) as ops`. -/
  | connect (cfg : Json)
  | listRecords (rtype name : String)
  | deleteRecord (identifier : String)
  | createRecord (rtype name content : String)
  deriving DecidableEq

/-- What each operation returns, as far as it is looked at. -/
abbrev DnsOp.Ans : DnsOp → Type
  | .connect _ => Unit
  | .listRecords _ _ => List DnsRecord
  | .deleteRecord _ => Unit
  | .createRecord _ _ _ => Unit

/-- The operations, as a signature. -/
abbrev dnsSig : Sig := ⟨DnsOp, DnsOp.Ans⟩

/-- A program of the callbacks. -/
abbrev Callback (α : Type) : Type := Program Exc dnsSig α

/-- One operation. -/
def ask (o : DnsOp) : Callback o.Ans := @Program.perform Exc dnsSig o

@[simp] theorem eval_ask {σ : Type} (h : Handler Exc dnsSig σ) (o : DnsOp) (s : σ) :
    Program.eval h (ask o) s = h o s :=
  @Program.eval_perform Exc dnsSig σ h o s

/-- What becomes of an operation. -/
inductive LexiconFault
  | works
  /-- It raises, and the provider has done nothing. -/
  | refused (e : Exc)
  /-- The provider has done it, and the answer is lost. -/
  | lost (e : Exc)

/-- What the provider does during one callback. -/
structure LexiconEnv where
  fault : DnsOp → LexiconFault
  /-- The identifier of a new record. -/
  newId : List String → String
  fresh : ∀ ids, newId ids ∉ ids

/-- The fully qualified name of a relative one. -/
def fqdn (zone relative : String) : String := relative ++ "." ++ zone

/-- What an operation returns. -/
def DnsOp.answer (zone : String) (z : Zone) : (o : DnsOp) → o.Ans
  | .connect _ => ()
  | .listRecords rtype name => z.lookup rtype (fqdn zone name)
  | .deleteRecord _ => ()
  | .createRecord _ _ _ => ()

/-- What an operation makes of the zone. -/
def DnsOp.effect (zone : String) (env : LexiconEnv) (z : Zone) : DnsOp → Zone
  | .connect _ => z
  | .listRecords _ _ => z
  | .deleteRecord identifier => z.delete identifier
  | .createRecord rtype name content =>
    z.add ⟨env.newId (z.records.map DnsRecord.id), rtype, fqdn zone name, content⟩ (env.fresh _)

/-- The operations against `env`. -/
def lexicon (zone : String) (env : LexiconEnv) : Handler Exc dnsSig Zone := fun o z =>
  match env.fault o with
  | .works => (.ok (o.answer zone z), o.effect zone env z)
  | .refused e => (.error e, z)
  | .lost e => (.error e, o.effect zone env z)

/-- An operation that returns has worked. -/
theorem lexicon_eq_ok {zone : String} {env : LexiconEnv} {o : DnsOp} {z z' : Zone} {a : o.Ans}
    (h : lexicon zone env o z = (.ok a, z')) : a = o.answer zone z ∧ z' = o.effect zone env z := by
  rw [lexicon] at h
  split at h
  · cases h
    exact ⟨rfl, rfl⟩
  · cases h
  · cases h

/-! ### The callbacks -/

/-- `to_lexicon_dict`. -/
def DnsProviderConfig.toLexiconDict (c : DnsProviderConfig) : Json :=
  match c.specific with
  | .rfc2136 server tsigKey => .obj
      [("provider_name", .str "ddns"), ("domain", c.domain), ("ttl", c.ttl),
        ("ddns", .obj [("ddns_server", server), ("auth_token", tsigKey)])]
  | .google projectId serviceAccountInfo => .obj
      [("provider_name", .str "googleclouddns"), ("domain", c.domain), ("ttl", c.ttl),
        ("googleclouddns", .obj
          [("auth_service_account_info", serviceAccountInfo), ("auth_project", projectId)])]
  | .cloudflare apiToken zoneId => .obj
      [("provider_name", .str "cloudflare"), ("domain", c.domain), ("ttl", c.ttl),
        ("cloudflare", .obj
          (("auth_token", apiToken) :: if zoneId.truthy then [("zone_id", zoneId)] else []))]

/-- `for record in existing: ops.delete_record(identifier=record["id"])`. -/
def deleteAll : List DnsRecord → Callback Unit
  | [] => return ()
  | record :: existing => do
    ask (.deleteRecord record.id)
    deleteAll existing

/-- A factory, and how it formats what it puts into names and messages. -/
structure DnsHandlerFactory where
  config : DnsProviderConfig
  /-- `str(v)` of a value that is not a string. -/
  str : Json → String
  /-- `repr(v)`. -/
  repr : Json → String

namespace DnsHandlerFactory

/-- `_lexicon_config`. -/
def lexiconConfig (self : DnsHandlerFactory) : Json := self.config.toLexiconDict

/-- `_relative_name`. -/
def relativeName (self : DnsHandlerFactory) (name : String) : String :=
  let suffix := "." ++ self.config.domain.format self.str
  if suffix.toList <:+ name.toList then String.ofList (name.toList.rdrop suffix.toList.length)
  else name

/-- The `try` around both callbacks. The two messages differ in the verb. -/
def translating (self : DnsHandlerFactory) (verb name : String) (body : Callback Unit) :
    Callback Unit :=
  Program.tryCatch body fun exc =>
    let zone := self.repr self.config.domain
    if exc.isA .authenticationError then
      raise ⟨.dnsAuthError, "Auth failed for zone " ++ zone ++ ": " ++ exc.msg⟩
    else if exc.isA .lexiconError then
      raise ⟨.dnsRecordError,
        "Failed to " ++ verb ++ " TXT " ++ self.repr (.str name) ++ " in " ++ zone ++ ": " ++ exc.msg⟩
    else raise exc

/-- `_create_record`. The domain it is given is that of the name, and is not looked at. -/
def createRecord (self : DnsHandlerFactory) (_domain name value : String) : Callback Unit :=
  let relative := self.relativeName name
  let cfg := self.lexiconConfig
  self.translating "create" name do
    ask (.connect cfg)
    let existing ← ask (.listRecords "TXT" relative)
    deleteAll existing
    ask (.createRecord "TXT" relative value)

/-- `_delete_record`. -/
def deleteRecord (self : DnsHandlerFactory) (_domain name : String) : Callback Unit :=
  let relative := self.relativeName name
  let cfg := self.lexiconConfig
  self.translating "delete" name do
    ask (.connect cfg)
    let existing ← ask (.listRecords "TXT" relative)
    deleteAll existing

end DnsHandlerFactory

/-! ### The relative name -/

/-- A name that ends in `.` and the zone. -/
def InZone (zone name : String) : Prop := ("." ++ zone).toList <:+ name.toList

instance (zone name : String) : Decidable (InZone zone name) :=
  inferInstanceAs (Decidable (_ <:+ _))

variable {self : DnsHandlerFactory} {env : LexiconEnv} {zone name value domain : String}
  {z z' : Zone}

theorem fqdn_relativeName (hzone : self.config.domain = .str zone) (hname : InZone zone name) :
    fqdn zone (self.relativeName name) = name := by
  obtain ⟨relative, hsplit⟩ := hname
  have hsuffix : ("." ++ zone).toList <:+ name.toList := ⟨relative, hsplit⟩
  rw [DnsHandlerFactory.relativeName, hzone, Json.format, if_pos hsuffix, ← hsplit,
    List.rdrop_append_length, fqdn, String.append_assoc]
  refine String.toList_inj.mp ?_
  rw [String.toList_append, String.toList_ofList, hsplit]

/-! ### What a successful callback leaves -/

theorem records_deleteAll {existing : List DnsRecord}
    (h : eval (lexicon zone env) (deleteAll existing) z = (.ok (), z')) :
    z'.records = z.records.filter fun r => r.id ∉ existing.map DnsRecord.id := by
  induction existing generalizing z with
  | nil =>
    cases h
    exact (List.filter_eq_self.mpr fun r _ => by simp).symm
  | cons record existing ih =>
    obtain ⟨u, z₁, hdelete, hrest⟩ := eval_bind_eq_ok.mp h
    rw [eval_ask] at hdelete
    obtain ⟨-, rfl⟩ := lexicon_eq_ok hdelete
    rw [ih hrest, DnsOp.effect, Zone.delete, List.filter_filter]
    refine List.filter_congr fun r _ => ?_
    rw [List.map_cons, ← Bool.decide_and, decide_eq_decide, List.mem_cons, not_or]
    exact and_comm

/-- Deleting what was listed deletes the records of that type at that name, since no other record
has one of their identifiers. -/
theorem filter_lookup (z : Zone) (rtype name : String) :
    (z.records.filter fun r => r.id ∉ (z.lookup rtype name).map DnsRecord.id) =
      z.records.filter fun r => ¬(r.type = rtype ∧ r.name = name) := by
  refine List.filter_congr fun r hr => decide_eq_decide.mpr (not_congr ?_)
  rw [List.mem_map]
  constructor
  · rintro ⟨s, hs, hid⟩
    obtain ⟨hmem, hlisted⟩ := List.mem_filter.mp hs
    obtain rfl := List.inj_on_of_nodup_map z.unique hmem hr hid
    exact of_decide_eq_true hlisted
  · exact fun hlisted => ⟨r, List.mem_filter.mpr ⟨hr, decide_eq_true hlisted⟩, rfl⟩

theorem translating_eq_ok {verb : String} {body : Callback Unit}
    (h : eval (lexicon zone env) (self.translating verb name body) z = (.ok (), z')) :
    eval (lexicon zone env) body z = (.ok (), z') := by
  rcases eval_tryCatch_eq_ok.mp h with hbody | ⟨e, z₁, -, hcatch⟩
  · exact hbody
  · dsimp only at hcatch
    split at hcatch
    · cases hcatch
    · split at hcatch <;> cases hcatch

/-- What both callbacks begin with: the TXT records at the name are listed and deleted. -/
theorem records_cleared (hzone : self.config.domain = .str zone) (hname : InZone zone name)
    {cfg : Json} {existing : List DnsRecord} {z₁ z₂ : Zone}
    (hconnect : eval (lexicon zone env) (ask (.connect cfg)) z = (.ok (), z₁))
    (hlist : eval (lexicon zone env) (ask (.listRecords "TXT" (self.relativeName name))) z₁ =
      (.ok existing, z₂))
    (hdelete : eval (lexicon zone env) (deleteAll existing) z₂ = (.ok (), z')) :
    z'.records = z.records.filter fun r => ¬(r.type = "TXT" ∧ r.name = name) := by
  rw [eval_ask] at hconnect hlist
  have hz₁ : z₁ = z := (lexicon_eq_ok hconnect).2
  have hz₂ : z₂ = z := (lexicon_eq_ok hlist).2.trans hz₁
  have hexisting : existing = z.lookup "TXT" name := by
    rw [(lexicon_eq_ok hlist).1, hz₁, DnsOp.answer, fqdn_relativeName hzone hname]
  rw [records_deleteAll hdelete, hexisting, hz₂, filter_lookup]

/-- **A successful `_create_record`.** The TXT records at the name are gone, and there is a new
one. -/
theorem records_createRecord (hzone : self.config.domain = .str zone) (hname : InZone zone name)
    (h : eval (lexicon zone env) (self.createRecord domain name value) z = (.ok (), z')) :
    ∃ id, z'.records =
      (z.records.filter fun r => ¬(r.type = "TXT" ∧ r.name = name)) ++ [⟨id, "TXT", name, value⟩] := by
  have hbody := translating_eq_ok h
  obtain ⟨u, z₁, hconnect, hconnected⟩ := eval_bind_eq_ok.mp hbody
  obtain ⟨existing, z₂, hlist, hlisted⟩ := eval_bind_eq_ok.mp hconnected
  obtain ⟨v, z₃, hdelete, hcreate⟩ := eval_bind_eq_ok.mp hlisted
  rw [eval_ask] at hcreate
  have hcreated := congrArg Zone.records (lexicon_eq_ok hcreate).2
  rw [DnsOp.effect, fqdn_relativeName hzone hname] at hcreated
  have hcleared := records_cleared hzone hname hconnect hlist hdelete
  exact ⟨_, hcreated.trans (congrArg (· ++ _) hcleared)⟩

/-- **A successful `_delete_record`.** The TXT records at the name are gone. -/
theorem records_deleteRecord (hzone : self.config.domain = .str zone) (hname : InZone zone name)
    (h : eval (lexicon zone env) (self.deleteRecord domain name) z = (.ok (), z')) :
    z'.records = z.records.filter fun r => ¬(r.type = "TXT" ∧ r.name = name) := by
  have hbody := translating_eq_ok h
  obtain ⟨u, z₁, hconnect, hconnected⟩ := eval_bind_eq_ok.mp hbody
  obtain ⟨existing, z₂, hlist, hdelete⟩ := eval_bind_eq_ok.mp hconnected
  exact records_cleared hzone hname hconnect hlist hdelete

/-- What a successful `_create_record` makes of the TXT record sets. -/
theorem txt_createRecord (hzone : self.config.domain = .str zone) (hname : InZone zone name)
    (h : eval (lexicon zone env) (self.createRecord domain name value) z = (.ok (), z')) :
    z'.txt = Function.update z.txt name [value] := by
  obtain ⟨id, hrecords⟩ := records_createRecord hzone hname h
  funext a
  rw [Zone.txt, Zone.lookup, hrecords, List.filter_append, List.filter_filter]
  by_cases ha : a = name
  · subst ha
    rw [Function.update_self]
    have hgone : (z.records.filter fun r => decide (r.type = "TXT" ∧ r.name = a) &&
        decide ¬(r.type = "TXT" ∧ r.name = a)) = [] :=
      List.filter_eq_nil_iff.mpr fun r _ => by simp
    rw [hgone]
    simp
  · rw [Function.update_of_ne ha, Zone.txt, Zone.lookup]
    have hsame : (z.records.filter fun r => decide (r.type = "TXT" ∧ r.name = a) &&
        decide ¬(r.type = "TXT" ∧ r.name = name)) =
        z.records.filter fun r => r.type = "TXT" ∧ r.name = a :=
      List.filter_congr fun r _ => by
        by_cases hr : r.name = a
        · simp [hr, ha]
        · simp [hr]
    rw [hsame]
    simp [Ne.symm ha]

end NextepAgent
