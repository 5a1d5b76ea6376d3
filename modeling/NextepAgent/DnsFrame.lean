import NextepAgent.Challenges
import NextepAgent.Effect.History

/-!
# What the DNS callbacks leave alone

The zone is in production, and the callbacks delete in it. Whatever they delete was listed before,
as a TXT record at the name of the call. So all that is not a TXT record at a name that was called
with stays as it is, after any number of calls, and at every moment of them. Where a call raises
makes no difference.

## Main definitions

* `DnsCall`, `dnsStep` — a call, and what it makes of the zone
* `Zone.others` — all but the challenge records at some names

## Main results

* `always_others` — the others, during one call
* `DnsCall.records_run` — what a successful call leaves
* `callbacks_frame`
-/

namespace NextepAgent

open Effect Program

/-- A call of one of the callbacks. -/
inductive DnsCall
  | create (domain name value : String)
  | delete (domain name : String)

namespace DnsCall

/-- The name it is made with. -/
def name : DnsCall → String
  | .create _ name _ => name
  | .delete _ name => name

/-- The callback. -/
def run (self : DnsHandlerFactory) : DnsCall → Callback Unit
  | .create domain name value => self.createRecord domain name value
  | .delete domain name => self.deleteRecord domain name

/-- What it should put at its name. The identifier is the provider's. -/
def published (id : String) : DnsCall → List DnsRecord
  | .create _ name value => [⟨id, "TXT", name, value⟩]
  | .delete _ _ => []

end DnsCall

/-- A call, with what the provider does during it. It may raise. -/
def dnsStep (self : DnsHandlerFactory) (zone : String) (z : Zone) (e : DnsCall × LexiconEnv) : Zone :=
  (eval (lexicon zone e.2) (e.1.run self) z).2

/-- All records but the TXT records at these names. -/
def Zone.others (z : Zone) (names : List String) : List DnsRecord :=
  z.records.filter fun r => ¬(r.type = "TXT" ∧ r.name ∈ names)

variable {self : DnsHandlerFactory} {env : LexiconEnv} {zone : String} {names : List String}
  {call : DnsCall} {z z' : Zone}

theorem Zone.mem_others {r : DnsRecord} :
    r ∈ z.others names ↔ r ∈ z.records ∧ ¬(r.type = "TXT" ∧ r.name ∈ names) := by
  rw [Zone.others, List.mem_filter, decide_eq_true_eq]

/-! ### One operation -/

/-- Where only records that are not among the others go, the others stay. -/
theorem Zone.others_delete {identifier : String} (h : ∀ r ∈ z.others names, r.id ≠ identifier) :
    (z.delete identifier).others names = z.others names := by
  rw [Zone.others, Zone.delete, List.filter_filter, Zone.others]
  refine List.filter_congr fun r hr => ?_
  rw [← Bool.decide_and, decide_eq_decide]
  exact ⟨And.left, fun hother => ⟨hother, h r (Zone.mem_others.mpr ⟨hr, hother⟩)⟩⟩

/-- A new TXT record at one of the names is not among the others. -/
theorem Zone.others_add {r : DnsRecord} (h : r.id ∉ z.records.map DnsRecord.id)
    (htype : r.type = "TXT") (hname : r.name ∈ names) :
    (z.add r h).others names = z.others names := by
  rw [Zone.others, Zone.add, List.filter_append]
  simp [Zone.others, htype, hname]

/-- What may be asked without a change to these records: identifiers are deleted that none of them
has, and TXT records are created at one of the names. -/
def DnsOp.Spares (zone : String) (names : List String) (others : List DnsRecord) : DnsOp → Prop
  | .connect _ => True
  | .listRecords _ _ => True
  | .deleteRecord identifier => ∀ r ∈ others, r.id ≠ identifier
  | .createRecord rtype relative _ => rtype = "TXT" ∧ fqdn zone relative ∈ names

theorem DnsOp.others_effect {o : DnsOp} (h : o.Spares zone names (z.others names)) :
    (o.effect zone env z).others names = z.others names := by
  cases o with
  | connect cfg => rfl
  | listRecords rtype relative => rfl
  | deleteRecord identifier => exact Zone.others_delete h
  | createRecord rtype relative content => exact Zone.others_add (env.fresh _) h.1 h.2

theorem others_lexicon {o : DnsOp} (h : o.Spares zone names (z.others names)) :
    (lexicon zone env o z).2.others names = z.others names := by
  rw [lexicon]
  cases env.fault o with
  | works => exact DnsOp.others_effect h
  | refused e => rfl
  | lost e => exact DnsOp.others_effect h

/-! ### One call -/

/-- A record that is listed at one of the names has its identifier for itself. -/
theorem id_ne_of_mem_lookup {name : String} (hname : name ∈ names) {r s : DnsRecord}
    (hr : r ∈ z.others names) (hs : s ∈ z.lookup "TXT" name) : r.id ≠ s.id := by
  intro hid
  obtain ⟨hmem, hother⟩ := Zone.mem_others.mp hr
  obtain ⟨hlisted, hat⟩ := List.mem_filter.mp hs
  obtain rfl := List.inj_on_of_nodup_map z.unique hmem hlisted hid
  obtain ⟨htype, rfl⟩ := of_decide_eq_true hat
  exact hother ⟨htype, hname⟩

/-- Deletions of records that are listed. They are all of them spared by what is not listed. -/
theorem uses_deleteAll {existing : List DnsRecord} {others : List DnsRecord}
    (h : ∀ s ∈ existing, ∀ r ∈ others, r.id ≠ s.id) :
    (deleteAll existing).Uses (fun _ _ => True) (DnsOp.Spares zone names others) := by
  induction existing with
  | nil => trivial
  | cons s existing ih =>
    refine Uses.bind (uses_perform fun r hr => h s List.mem_cons_self r hr) fun _ => ?_
    exact ih fun s' hs' => h s' (List.mem_cons_of_mem _ hs')

/-- Every moment of a program that only asks what spares the others. -/
theorem always_others_of_uses {α : Type} {p : Callback α}
    (hp : p.Uses (fun _ _ => True) (DnsOp.Spares zone names (z.others names))) :
    Always (lexicon zone env) (fun z' => z'.others names = z.others names) p z := by
  refine hp.always_invariant (fun o z' ho hz' => ?_) rfl
  rw [← hz'] at ho ⊢
  exact others_lexicon ho

theorem always_translating {I : Zone → Prop} {verb name : String} {body : Callback Unit}
    (h : Always (lexicon zone env) I body z) :
    Always (lexicon zone env) I (self.translating verb name body) z := by
  refine always_tryCatch.mpr ⟨h, fun e z' hz' => ?_⟩
  have hend : I z' := by
    have heval := h.eval
    rwa [hz'] at heval
  dsimp only
  split
  · exact hend
  · split
    · exact hend
    · exact hend

/-- What both callbacks do: they connect, list, and go on with what was listed. The answer to the
listing is where the invariant comes from, and so the operations before it are taken one by one. -/
theorem always_listed {I : Zone → Prop} {name : String} (hzone : self.config.domain = .str zone)
    (hname : InZone zone name) {cfg : Json} {rest : List DnsRecord → Callback Unit} (hz : I z)
    (hrest : Always (lexicon zone env) I (rest (z.lookup "TXT" name)) z) :
    Always (lexicon zone env) I (do
      ask (.connect cfg)
      let existing ← ask (.listRecords "TXT" (self.relativeName name))
      rest existing) z := by
  have hsame : ∀ (o : DnsOp), o.effect zone env z = z → (lexicon zone env o z).2 = z := by
    intro o ho
    rw [lexicon]
    cases env.fault o with
    | works => exact ho
    | refused e => rfl
    | lost e => exact ho
  have hask : ∀ (o : DnsOp), o.effect zone env z = z → Always (lexicon zone env) I (ask o) z := by
    intro o ho
    refine always_perform (h := lexicon zone env) o z |>.mpr ⟨hz, ?_⟩
    rw [hsame o ho]
    exact hz
  refine always_bind.mpr ⟨hask _ rfl, fun u z₁ hconnect => ?_⟩
  rw [eval_ask] at hconnect
  obtain rfl : z₁ = z := (lexicon_eq_ok hconnect).2
  refine always_bind.mpr ⟨hask _ rfl, fun existing z₂ hlist => ?_⟩
  rw [eval_ask] at hlist
  obtain ⟨rfl, rfl⟩ := lexicon_eq_ok hlist
  rw [DnsOp.answer, fqdn_relativeName hzone hname]
  exact hrest

/-- **One call.** At every moment, the others are what they were. -/
theorem always_others (hzone : self.config.domain = .str zone) (hname : InZone zone call.name)
    (hmem : call.name ∈ names) :
    Always (lexicon zone env) (fun z' => z'.others names = z.others names) (call.run self) z := by
  have hdelete : (deleteAll (z.lookup "TXT" call.name)).Uses (fun _ _ => True)
      (DnsOp.Spares zone names (z.others names)) :=
    uses_deleteAll fun s hs r hr => id_ne_of_mem_lookup hmem hr hs
  cases call with
  | create domain name value =>
    refine always_translating (always_listed hzone hname rfl (always_others_of_uses ?_))
    have hcreate : DnsOp.Spares zone names (z.others names)
        (.createRecord "TXT" (self.relativeName name) value) :=
      ⟨rfl, (fqdn_relativeName hzone hname).symm ▸ hmem⟩
    exact Uses.bind hdelete fun _ => uses_perform hcreate
  | delete domain name =>
    exact always_translating (always_listed hzone hname rfl (always_others_of_uses hdelete))

/-- **A successful call.** All that was there stays, but the TXT records at its name. -/
theorem DnsCall.records_run (hzone : self.config.domain = .str zone)
    (hname : InZone zone call.name) (h : eval (lexicon zone env) (call.run self) z = (.ok (), z')) :
    ∃ id, z'.records = z.others [call.name] ++ call.published id := by
  cases call with
  | create domain name value =>
    have hcreate : eval (lexicon zone env) (self.createRecord domain name value) z = (.ok (), z') :=
      h
    obtain ⟨id, hrecords⟩ := records_createRecord hzone hname hcreate
    exact ⟨id, by simpa [Zone.others, DnsCall.published, DnsCall.name] using hrecords⟩
  | delete domain name =>
    have hdelete : eval (lexicon zone env) (self.deleteRecord domain name) z = (.ok (), z') := h
    have hrecords := records_deleteRecord hzone hname hdelete
    exact ⟨"", by simpa [Zone.others, DnsCall.published, DnsCall.name] using hrecords⟩

/-- Of the TXT records at its name, a successful call leaves what it has published. -/
theorem DnsCall.lookup_published {id : String}
    (h : z'.records = z.others [call.name] ++ call.published id) :
    z'.lookup "TXT" call.name = call.published id := by
  have hgone : (z.others [call.name]).filter
      (fun r => r.type = "TXT" ∧ r.name = call.name) = [] := by
    refine List.filter_eq_nil_iff.mpr fun r hr hat => (Zone.mem_others.mp hr).2 ?_
    obtain ⟨htype, hname⟩ := of_decide_eq_true hat
    exact ⟨htype, hname ▸ List.mem_cons_self⟩
  rw [Zone.lookup, h, List.filter_append, hgone, List.nil_append]
  cases call with
  | create domain name value => simp [DnsCall.published, DnsCall.name]
  | delete domain name => rfl

/-! ### Any number of calls -/

/-- The others after some calls. The induction is on the calls, of which any may have raised. -/
theorem others_foldl {hist : List (DnsCall × LexiconEnv)} (hzone : self.config.domain = .str zone)
    (hnames : ∀ e ∈ hist, InZone zone e.1.name) (hmem : ∀ e ∈ hist, e.1.name ∈ names) :
    (hist.foldl (dnsStep self zone) z).others names = z.others names := by
  induction hist generalizing z with
  | nil => rfl
  | cons e hist ih =>
    rw [List.foldl_cons, ih (fun a ha => hnames a (List.mem_cons_of_mem _ ha))
      fun a ha => hmem a (List.mem_cons_of_mem _ ha)]
    exact (always_others hzone (hnames e List.mem_cons_self) (hmem e List.mem_cons_self)).eval

/-- **The frame of the callbacks.** In a sequence of calls on names in the zone, at every moment of
every call, all records but the TXT records at these names are what they were before the sequence.
A call that succeeds takes all TXT records at its name away, and no others. What is there afterwards
is the one it has created, or nothing. -/
theorem callbacks_frame (self : DnsHandlerFactory) (zone : String) (z : Zone)
    (hist : List (DnsCall × LexiconEnv)) (hzone : self.config.domain = .str zone)
    (hnames : ∀ e ∈ hist, InZone zone e.1.name) :
    (hist.foldl (dnsStep self zone) z).others (hist.map fun e => e.1.name) =
        z.others (hist.map fun e => e.1.name) ∧
      Throughout (dnsStep self zone) (fun z₁ e =>
        Always (lexicon zone e.2)
            (fun z' => z'.others (hist.map fun e => e.1.name) =
              z.others (hist.map fun e => e.1.name))
            (e.1.run self) z₁ ∧
          ((eval (lexicon zone e.2) (e.1.run self) z₁).1 = .ok () →
            ∃ id, (dnsStep self zone z₁ e).records = z₁.others [e.1.name] ++ e.1.published id ∧
              (dnsStep self zone z₁ e).lookup "TXT" e.1.name = e.1.published id)) z hist := by
  have hmem : ∀ e ∈ hist, e.1.name ∈ hist.map fun e => e.1.name :=
    fun e he => List.mem_map_of_mem he
  refine ⟨others_foldl hzone hnames hmem, fun hist₁ e hist₂ hsplit => ⟨?_, fun hok => ?_⟩⟩
  · have hin : e ∈ hist := hsplit ▸ List.mem_append_right _ List.mem_cons_self
    have hsame : (hist₁.foldl (dnsStep self zone) z).others (hist.map fun e => e.1.name) =
        z.others (hist.map fun e => e.1.name) :=
      others_foldl hzone (fun a ha => hnames a (hsplit ▸ List.mem_append_left _ ha))
        fun a ha => hmem a (hsplit ▸ List.mem_append_left _ ha)
    rw [← hsame]
    exact always_others hzone (hnames e hin) (hmem e hin)
  · have hin : e ∈ hist := hsplit ▸ List.mem_append_right _ List.mem_cons_self
    obtain ⟨id, hrecords⟩ := DnsCall.records_run hzone (hnames e hin) (Prod.ext hok rfl)
    exact ⟨id, hrecords, DnsCall.lookup_published hrecords⟩

/-- A zone with an address and a challenge that was left there. -/
def staleZone : Zone where
  records := [⟨"1", "A", "app.example.com", "192.0.2.1"⟩,
    ⟨"2", "TXT", "_acme-challenge.app.example.com", "stale"⟩]
  unique := by decide

/-- A provider whose answers are lost. -/
def lostEnv : LexiconEnv := { workingEnv with fault := fun _ => .lost ⟨.lexiconError, "timed out"⟩ }

/-- A challenge is put up, and taking it down fails. -/
def staleCalls : List (DnsCall × LexiconEnv) :=
  [(.create "app.example.com" "_acme-challenge.app.example.com" "t", workingEnv),
    (.delete "app.example.com" "_acme-challenge.app.example.com", lostEnv)]

theorem callbacks_frame_demo :
    (staleCalls.foldl (dnsStep cloudflareFactory "example.com") staleZone).others
        (staleCalls.map fun e => e.1.name) = [⟨"1", "A", "app.example.com", "192.0.2.1"⟩] ∧
      ∃ id, (dnsStep cloudflareFactory "example.com" staleZone
          (.create "app.example.com" "_acme-challenge.app.example.com" "t", workingEnv)).lookup "TXT"
          "_acme-challenge.app.example.com" =
        [⟨id, "TXT", "_acme-challenge.app.example.com", "t"⟩] := by
  obtain ⟨hothers, hcalls⟩ :=
    callbacks_frame cloudflareFactory "example.com" staleZone staleCalls rfl (by decide)
  have hworks : ∃ z', eval (lexicon "example.com" workingEnv)
      ((DnsCall.create "app.example.com" "_acme-challenge.app.example.com" "t").run
        cloudflareFactory) staleZone = (.ok (), z') :=
    createRecord_returns workingEnv_works (appChallenge "t") staleZone
  obtain ⟨z', hreturns⟩ := hworks
  obtain ⟨id, -, hlookup⟩ := (hcalls [] _ _ rfl).2 (congrArg Prod.fst hreturns)
  exact ⟨hothers.trans (by decide), id, hlookup⟩

end NextepAgent
