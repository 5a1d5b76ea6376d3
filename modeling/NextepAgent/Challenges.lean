import NextepAgent.Dns
import NextepAgent.Effect.Registers

/-!
# The challenges of one order

All challenges of an order are put up before the first is looked at. `_create_record` takes down
whatever TXT records it finds at the name and puts up its own, so that for the names it is called
with the zone behaves like a store of registers: each holds the last value, and only that.

Two domains of an order may share a name. The challenges of `app.example.com` and
`*.app.example.com` are both at `_acme-challenge.app.example.com`, and they have different values.
Of these the earlier one is taken down again.

## Main definitions

* `Challenge`, `Created` — challenges put up one after another

## Main results

* `Created.txt_eq` — the TXT record sets are registers
* `Created.challenges_kept_iff`
-/

namespace NextepAgent

open Effect Program

/-- What the callback is called with. -/
structure Challenge where
  domain : String
  name : String
  value : String
  deriving DecidableEq

/-- The register that a challenge writes, and the record set it writes there. -/
def Challenge.write (c : Challenge) : String × List String := (c.name, [c.value])

/-- `_create_record` has returned for each challenge, in order. The provider need not do the same in
each of the calls. -/
inductive Created (self : DnsHandlerFactory) (zone : String) : Zone → List Challenge → Zone → Prop
  | nil (z : Zone) : Created self zone z [] z
  | cons (env : LexiconEnv) {z z₁ z' : Zone} {c : Challenge} {cs : List Challenge}
      (h : eval (lexicon zone env) (self.createRecord c.domain c.name c.value) z = (.ok (), z₁))
      (hcs : Created self zone z₁ cs z') : Created self zone z (c :: cs) z'

variable {self : DnsHandlerFactory} {zone : String} {env : LexiconEnv} {z z' : Zone}
  {cs : List Challenge}

/-- The record sets after a list of challenges are the registers after a list of writes. -/
theorem Created.txt_eq (hzone : self.config.domain = .str zone)
    (hnames : ∀ c ∈ cs, InZone zone c.name) (h : Created self zone z cs z') :
    z'.txt = Registers.writes z.txt (cs.map Challenge.write) := by
  induction h with
  | nil z => rfl
  | cons env hcall _ ih =>
    obtain ⟨hname, hnames⟩ := List.forall_mem_cons.mp hnames
    rw [ih hnames, txt_createRecord hzone hname hcall]
    rfl

/-- **Every challenge is kept exactly when challenges at one name have one value.** -/
theorem Created.challenges_kept_iff (self : DnsHandlerFactory) (zone : String) (z z' : Zone)
    (cs : List Challenge) (hzone : self.config.domain = .str zone)
    (hnames : ∀ c ∈ cs, InZone zone c.name) (h : Created self zone z cs z') :
    (∀ c ∈ cs, c.value ∈ z'.txt c.name) ↔
      ∀ c ∈ cs, ∀ d ∈ cs, c.name = d.name → c.value = d.value := by
  have hkept := Registers.kept_iff z.txt (cs.map Challenge.write)
  rw [← h.txt_eq hzone hnames] at hkept
  simp only [List.forall_mem_map, Challenge.write, List.cons.injEq, and_true] at hkept
  rw [← hkept]
  refine forall₂_congr fun c hc => ⟨fun hvalue => ?_, fun hset => ?_⟩
  · -- a name that is written holds one value, so that to hold this one is to hold only this one
    obtain ⟨w, hw, -, hread⟩ :=
      Registers.exists_writes_eq (List.mem_map_of_mem (f := Challenge.write) hc) z.txt
    obtain ⟨d, -, rfl⟩ := List.mem_map.mp hw
    rw [← h.txt_eq hzone hnames] at hread
    have hset : z'.txt c.name = [d.value] := hread
    rw [hset] at hvalue ⊢
    rw [List.mem_singleton.mp hvalue]
  · rw [hset]
    exact List.mem_singleton_self _

/-! ### A provider that works -/

theorem lexicon_of_works (hworks : ∀ o, env.fault o = .works) (o : DnsOp) (z : Zone) :
    lexicon zone env o z = (.ok (o.answer zone z), o.effect zone env z) := by
  rw [lexicon, hworks]

theorem deleteAll_returns (zone : String) (hworks : ∀ o, env.fault o = .works)
    (existing : List DnsRecord) (z : Zone) : ∃ z', eval (lexicon zone env) (deleteAll existing) z = (.ok (), z') := by
  induction existing generalizing z with
  | nil => exact ⟨z, rfl⟩
  | cons record existing ih =>
    obtain ⟨z', hrest⟩ := ih (z.delete record.id)
    have hdelete : eval (lexicon zone env) (ask (.deleteRecord record.id)) z =
        (.ok (), z.delete record.id) := by
      rw [eval_ask, lexicon_of_works hworks]
      rfl
    exact ⟨z', (eval_bind_of_ok hdelete).trans hrest⟩

/-- Against a provider that works, the callback returns. -/
theorem createRecord_returns (hworks : ∀ o, env.fault o = .works) (c : Challenge) (z : Zone) :
    ∃ z', eval (lexicon zone env) (self.createRecord c.domain c.name c.value) z = (.ok (), z') := by
  have hask : ∀ (o : DnsOp) (z : Zone), eval (lexicon zone env) (ask o) z =
      (.ok (o.answer zone z), o.effect zone env z) := fun o z => by
    rw [eval_ask, lexicon_of_works hworks]
  obtain ⟨z₁, hdelete⟩ := deleteAll_returns zone hworks
    (z.lookup "TXT" (fqdn zone (self.relativeName c.name))) z
  refine ⟨DnsOp.effect zone env z₁ (.createRecord "TXT" (self.relativeName c.name) c.value),
    eval_tryCatch_eq_ok.mpr (.inl ?_)⟩
  refine (eval_bind_of_ok (hask _ z)).trans ((eval_bind_of_ok (hask _ z)).trans ?_)
  exact (eval_bind_of_ok hdelete).trans (hask _ z₁)

theorem exists_created (self : DnsHandlerFactory) (zone : String)
    (hworks : ∀ o, env.fault o = .works) (cs : List Challenge) (z : Zone) :
    ∃ z', Created self zone z cs z' := by
  induction cs generalizing z with
  | nil => exact ⟨z, .nil z⟩
  | cons c cs ih =>
    obtain ⟨z₁, hcall⟩ := createRecord_returns hworks c z
    obtain ⟨z', hcs⟩ := ih z₁
    exact ⟨z', .cons env hcall hcs⟩

/-! ### The wildcard -/

/-- A provider that works. A new identifier is longer than all others. -/
def workingEnv : LexiconEnv where
  fault := fun _ => .works
  newId := fun ids => String.ofList ('x' :: ids.flatMap String.toList)
  fresh := fun ids hmem => by
    have hsub := List.sublist_flatten_of_mem (List.mem_map_of_mem (f := String.toList) hmem)
    have hlen := hsub.length_le
    rw [String.toList_ofList, List.length_cons, List.flatMap_def] at hlen
    omega

theorem workingEnv_works (o : DnsOp) : workingEnv.fault o = .works := rfl

/-- A Cloudflare zone. -/
def cloudflareFactory : DnsHandlerFactory where
  config := ⟨.str "example.com", .int 30, .int 300, .cloudflare (.str "token") (.str "")⟩
  str := fun _ => ""
  repr := fun _ => ""

/-- An empty zone. -/
def emptyZone : Zone := ⟨[], List.nodup_nil⟩

/-- A challenge at the name that a domain and its wildcard share. -/
def appChallenge (value : String) : Challenge :=
  ⟨"app.example.com", "_acme-challenge.app.example.com", value⟩

theorem challenges_kept_iff_demo :
    ∃ z', Created cloudflareFactory "example.com" emptyZone
        [appChallenge "t", ⟨"example.com", "_acme-challenge.example.com", "u"⟩] z' ∧
      "t" ∈ z'.txt "_acme-challenge.app.example.com" ∧
        "u" ∈ z'.txt "_acme-challenge.example.com" := by
  obtain ⟨z', h⟩ := exists_created cloudflareFactory "example.com" workingEnv_works
    [appChallenge "t", ⟨"example.com", "_acme-challenge.example.com", "u"⟩] emptyZone
  have hkept := (Created.challenges_kept_iff _ _ _ _ _ rfl (by decide) h).mpr (by decide)
  exact ⟨z', h, hkept _ List.mem_cons_self,
    hkept _ (List.mem_cons_of_mem _ List.mem_cons_self)⟩

/-- **A domain and its wildcard.** The second challenge takes down the first. -/
theorem wildcard_challenge_lost :
    ¬ ∀ (self : DnsHandlerFactory) (zone : String) (z z' : Zone) (cs : List Challenge),
      self.config.domain = .str zone → (∀ c ∈ cs, InZone zone c.name) →
      Created self zone z cs z' → ∀ c ∈ cs, c.value ∈ z'.txt c.name := by
  intro hkept
  have hnames : ∀ c ∈ [appChallenge "t", appChallenge "u"], InZone "example.com" c.name := by decide
  obtain ⟨z', h⟩ := exists_created cloudflareFactory "example.com" workingEnv_works
    [appChallenge "t", appChallenge "u"] emptyZone
  have hfirst := hkept _ _ _ _ _ rfl hnames h (appChallenge "t") (by simp)
  rw [h.txt_eq rfl hnames] at hfirst
  have hset : Registers.writes emptyZone.txt
      ([appChallenge "t", appChallenge "u"].map Challenge.write) (appChallenge "t").name =
      ["u"] := by decide
  rw [hset] at hfirst
  exact absurd hfirst (by decide)

end NextepAgent
