import NextepAgent.Decoding
import NextepAgent.FlowRunner
import NextepAgent.Posix
import Mathlib.Data.List.Nodup

/-!
# Where the output files of the flows lie

Every flow writes `<cert dir>/<name>.pem` and `<key dir>/<name>.key`. Names and directories are free
texts: a name may hold slashes, be absolute or go up with `..`, and a blank directory is the
conventional one of the host. That one also holds the machine certificate and key, with which the
agent itself authenticates, under the name `machine`.

## What decides

A certificate never lies where a key does, whatever the texts are, for their extensions differ.
Two certificates lie at one place when their flows lead to one folder and their names end in one
component, and so do two keys. The rest of a name counts as part of the directory.

The machine paths are the ones the organization's configuration has unless it overrides them.

An external flow reaches more files than its two: acmeow keeps accounts, keys and orders somewhere below
`account_dir`. What it writes there is not modelled, only where that is.

## Main definitions

* `Node.place` — the place of an output file
* `Node.NoClobber` — no two output files, and no output file and machine file, lie at one place
* `Node.KeptApart` — the condition on names and directories
* `Node.InStore`, `Node.MayWrite` — the files of acmeow, and all that a run of a flow may write to

## Main results

* `Node.noClobber_iff`
* `Node.noClobber_of_components` — single components that differ, none of them `machine`
-/

namespace NextepAgent

open Posix

/-- `platform_paths.machine_cert_path()`. -/
def machineCertPath (osFamily : String) : String := certOutputDir osFamily ++ "/machine.pem"

/-- `platform_paths.machine_key_path()`. -/
def machineKeyPath (osFamily : String) : String := keyOutputDir osFamily ++ "/machine.key"

/-- What the place of a file depends on beside the flow. -/
structure Node where
  /-- `_os_family()`. -/
  osFamily : String
  /-- `x509.load_pem_x509_certificates`. -/
  loadPem : Bytes → Except Exc (List Certificate)
  /-- The working directory of the agent. -/
  cwd : Place
  /-- `str(v)` of a value that is not a string. -/
  str : Json → String

namespace Node

variable (node : Node)

/-- The runner of a flow. -/
def runner (flow : FlowConfig) : FlowRunner := ⟨flow, node.osFamily, node.loadPem⟩

/-- The text of `f"{v}"`. -/
def format (v : Json) : List Char := (v.format node.str).toList

/-- The place of `Path(dir) / f"{stem}{suffix}"`. An absolute stem makes nothing of the directory. -/
def place (p : Path) : Place :=
  resolve (resolve node.cwd p.dir.toList) (node.format p.stem ++ p.suffix.toList)

/-- The place of the certificate, for a flow that has one. -/
def certFile (flow : FlowConfig) : Option Place :=
  (node.runner flow).certPath.toOption.map node.place

/-- The place of the key. -/
def keyFile (flow : FlowConfig) : Option Place :=
  (node.runner flow).keyPath.toOption.map node.place

/-- The output files of a flow. -/
def files (flow : FlowConfig) : List Place :=
  (node.certFile flow).toList ++ (node.keyFile flow).toList

/-- The directory that acmeow keeps its files in for a flow: `account_dir`. -/
def store (flow : FlowConfig) : Option Place :=
  match flow.config with
  | .internal _ => none
  | .external c => some (resolve node.cwd (node.format c.accountDir))

/-- A file that acmeow may keep for the flow. -/
def InStore (flow : FlowConfig) (l : Place) : Prop := ∃ d ∈ node.store flow, d <+: l

instance (flow : FlowConfig) (l : Place) : Decidable (node.InStore flow l) :=
  inferInstanceAs (Decidable (∃ d ∈ node.store flow, d <+: l))

/-- A file that a run of the flow may write to, one of its own or one of acmeow's. -/
def MayWrite (flow : FlowConfig) (l : Place) : Prop := l ∈ node.files flow ∨ node.InStore flow l

instance (flow : FlowConfig) (l : Place) : Decidable (node.MayWrite flow l) :=
  inferInstanceAs (Decidable (_ ∨ _))

/-- The place of the machine certificate. -/
def machineCert : Place := resolve node.cwd (machineCertPath node.osFamily).toList

/-- The place of the machine key. -/
def machineKey : Place := resolve node.cwd (machineKeyPath node.osFamily).toList

/-- The output files are distinct, and none is the certificate or the key of the machine. -/
structure NoClobber (c : AgentConfig) : Prop where
  distinct : (c.flows.flatMap node.files).Nodup
  machine : ∀ p ∈ c.flows.flatMap node.files, p ≠ node.machineCert ∧ p ≠ node.machineKey

/-- No flow reaches the certificate or the key of the machine, and its output files are its own. -/
structure Confined (c : AgentConfig) : Prop extends NoClobber node c where
  store : ∀ flow ∈ c.flows,
    ¬ node.InStore flow node.machineCert ∧ ¬ node.InStore flow node.machineKey

/-! ### The condition -/

/-- The last component of the name of a flow. -/
def called (flow : FlowConfig) : Name := lastName (node.format flow.name)

/-- The directory that `Path(v or default)` and the rest of the name lead to. -/
def folderOf (v : Json) (default : String) (name : Json) : Option Place :=
  (v.orDir default).toOption.map fun dir =>
    folder (resolve node.cwd dir.toList) (node.format name)

/-- The directory that the certificate of a flow is put in. -/
def certFolder (flow : FlowConfig) : Option Place :=
  node.folderOf flow.certOutputDir (certOutputDir node.osFamily) flow.name

/-- The directory that the key of a flow is put in. -/
def keyFolder (flow : FlowConfig) : Option Place :=
  node.folderOf flow.keyOutputDir (keyOutputDir node.osFamily) flow.name

/-- Two directories, if they are there, that differ. -/
def Apart (a b : Option Place) : Prop := ∀ d ∈ a, d ∉ b

/-- Flows whose names end alike have different directories for their certificates, and for their
keys. A flow whose name ends in `machine` uses neither of the conventional ones for its own kind of
file. -/
structure KeptApart (c : AgentConfig) : Prop where
  flows : c.flows.Pairwise fun f g => node.called f = node.called g →
    Apart (node.certFolder f) (node.certFolder g) ∧ Apart (node.keyFolder f) (node.keyFolder g)
  machine : ∀ f ∈ c.flows, node.called f = "machine".toList →
    resolve node.cwd (certOutputDir node.osFamily).toList ∉ node.certFolder f ∧
      resolve node.cwd (keyOutputDir node.osFamily).toList ∉ node.keyFolder f

/-! ### The place of a file -/

/-- The extension of a certificate. -/
def pem : Name := ".pem".toList

/-- The extension of a key. -/
def key : Name := ".key".toList

theorem pem_no_slash : '/' ∉ pem := by decide

theorem key_no_slash : '/' ∉ key := by decide

/-- The place of a file with this extension: its folder, and the name with the extension. -/
theorem placed {suffix : String} (hslash : '/' ∉ suffix.toList) (hlen : 2 < suffix.toList.length)
    (v name : Json) (default : String) :
    Option.map node.place
        (Except.map (fun dir => (⟨dir, name, suffix⟩ : Path)) (v.orDir default)).toOption =
      (node.folderOf v default name).map
        fun d => d ++ [lastName (node.format name) ++ suffix.toList] := by
  rw [folderOf]
  cases v.orDir default with
  | error e => rfl
  | ok dir =>
    have hplace := resolve_append hslash hlen (resolve node.cwd dir.toList) (node.format name)
    exact congrArg some hplace

theorem certFile_eq (flow : FlowConfig) :
    node.certFile flow = (node.certFolder flow).map fun d => d ++ [node.called flow ++ pem] :=
  node.placed pem_no_slash (by decide) flow.certOutputDir flow.name (certOutputDir node.osFamily)

theorem keyFile_eq (flow : FlowConfig) :
    node.keyFile flow = (node.keyFolder flow).map fun d => d ++ [node.called flow ++ key] :=
  node.placed key_no_slash (by decide) flow.keyOutputDir flow.name (keyOutputDir node.osFamily)

/-- The place of a file called `name` in a directory. -/
theorem resolve_in {dir : String} {name : Name} (hdir : dir.toList ≠ []) (hslash : '/' ∉ name)
    (hlen : 2 < name.length) {path : String} (hpath : path.toList = dir.toList ++ '/' :: name) :
    resolve node.cwd path.toList = resolve node.cwd dir.toList ++ [name] := by
  rw [hpath, resolve_join hdir hslash, enter_of_length _ hlen]

theorem machineCert_eq :
    node.machineCert =
      resolve node.cwd (certOutputDir node.osFamily).toList ++ ["machine".toList ++ pem] := by
  refine node.resolve_in ?_ (by decide) (by decide) ?_
  · rw [certOutputDir]
    split <;> simp
  · rw [machineCertPath, String.toList_append]
    rfl

theorem machineKey_eq :
    node.machineKey =
      resolve node.cwd (keyOutputDir node.osFamily).toList ++ ["machine".toList ++ key] := by
  refine node.resolve_in ?_ (by decide) (by decide) ?_
  · rw [keyOutputDir]
    split <;> simp
  · rw [machineKeyPath, String.toList_append]
    rfl

/-- A certificate and a key. -/
theorem cert_ne_key (d e : Place) (n m : Name) : d ++ [n ++ pem] ≠ e ++ [m ++ key] :=
  ext_ne (by decide) (by decide) d e n m

theorem mem_files {flow : FlowConfig} {p : Place} :
    p ∈ node.files flow ↔
      (∃ d ∈ node.certFolder flow, p = d ++ [node.called flow ++ pem]) ∨
        ∃ d ∈ node.keyFolder flow, p = d ++ [node.called flow ++ key] := by
  simp [files, certFile_eq, keyFile_eq, eq_comm]

/-! ### The files of one flow, and of two -/

theorem nodup_files (flow : FlowConfig) : (node.files flow).Nodup := by
  rw [files, List.nodup_append']
  refine ⟨by cases node.certFile flow <;> simp, by cases node.keyFile flow <;> simp, ?_⟩
  intro p hcert hkey
  rw [certFile_eq] at hcert
  rw [keyFile_eq] at hkey
  simp only [Option.mem_toList, Option.map_eq_some_iff] at hcert hkey
  obtain ⟨d, -, rfl⟩ := hcert
  obtain ⟨e, -, h⟩ := hkey
  exact cert_ne_key _ _ _ _ h.symm

/-- Two flows share no file when those whose names end alike have different directories. -/
theorem disjoint_files {f g : FlowConfig} :
    (node.files f).Disjoint (node.files g) ↔
      (node.called f = node.called g →
        Apart (node.certFolder f) (node.certFolder g) ∧
          Apart (node.keyFolder f) (node.keyFolder g)) := by
  constructor
  · intro h hcalled
    constructor
    · intro d hd hd'
      refine h (a := d ++ [node.called f ++ pem]) ?_ ?_
      · exact node.mem_files.mpr (.inl ⟨d, hd, rfl⟩)
      · exact node.mem_files.mpr (.inl ⟨d, hd', by rw [hcalled]⟩)
    · intro d hd hd'
      refine h (a := d ++ [node.called f ++ key]) ?_ ?_
      · exact node.mem_files.mpr (.inr ⟨d, hd, rfl⟩)
      · exact node.mem_files.mpr (.inr ⟨d, hd', by rw [hcalled]⟩)
  · intro h p hf hg
    rcases node.mem_files.mp hf with ⟨d, hd, rfl⟩ | ⟨d, hd, rfl⟩
    · rcases node.mem_files.mp hg with ⟨e, he, heq⟩ | ⟨e, he, heq⟩
      · obtain ⟨rfl, hcalled⟩ := ext_inj.mp heq
        exact (h hcalled).1 d hd he
      · exact cert_ne_key _ _ _ _ heq
    · rcases node.mem_files.mp hg with ⟨e, he, heq⟩ | ⟨e, he, heq⟩
      · exact cert_ne_key _ _ _ _ heq.symm
      · obtain ⟨rfl, hcalled⟩ := ext_inj.mp heq
        exact (h hcalled).2 d hd he

/-- A flow leaves the machine files alone when its name does not end in `machine`, or its
directories are others. -/
theorem files_ne_machine {f : FlowConfig} :
    (∀ p ∈ node.files f, p ≠ node.machineCert ∧ p ≠ node.machineKey) ↔
      (node.called f = "machine".toList →
        resolve node.cwd (certOutputDir node.osFamily).toList ∉ node.certFolder f ∧
          resolve node.cwd (keyOutputDir node.osFamily).toList ∉ node.keyFolder f) := by
  rw [machineCert_eq, machineKey_eq]
  constructor
  · intro h hcalled
    constructor
    · intro hd
      refine (h _ (node.mem_files.mpr (.inl ⟨_, hd, rfl⟩))).1 ?_
      rw [hcalled]
    · intro hd
      refine (h _ (node.mem_files.mpr (.inr ⟨_, hd, rfl⟩))).2 ?_
      rw [hcalled]
  · intro h p hp
    rcases node.mem_files.mp hp with ⟨d, hd, rfl⟩ | ⟨d, hd, rfl⟩
    · refine ⟨fun heq => ?_, cert_ne_key _ _ _ _⟩
      obtain ⟨rfl, hcalled⟩ := ext_inj.mp heq
      exact (h hcalled).1 hd
    · refine ⟨(cert_ne_key _ _ _ _).symm, fun heq => ?_⟩
      obtain ⟨rfl, hcalled⟩ := ext_inj.mp heq
      exact (h hcalled).2 hd

/-! ### All flows -/

/-- **The output files keep clear of each other and of the machine's exactly when the flows are kept
apart**: those whose names end in one component by their directories, and those whose names end in
`machine` from the conventional directories. -/
theorem noClobber_iff (c : AgentConfig) : node.NoClobber c ↔ node.KeptApart c := by
  have hdistinct : (c.flows.flatMap node.files).Nodup ↔
      c.flows.Pairwise fun f g => node.called f = node.called g →
        Apart (node.certFolder f) (node.certFolder g) ∧
          Apart (node.keyFolder f) (node.keyFolder g) := by
    rw [List.nodup_flatMap, and_iff_right fun f _ => node.nodup_files f]
    exact List.Pairwise.iff fun f g => node.disjoint_files
  have hmachine : (∀ p ∈ c.flows.flatMap node.files,
      p ≠ node.machineCert ∧ p ≠ node.machineKey) ↔
      ∀ f ∈ c.flows, ∀ p ∈ node.files f, p ≠ node.machineCert ∧ p ≠ node.machineKey := by
    simp only [List.mem_flatMap]
    exact ⟨fun h f hf p hp => h p ⟨f, hf, hp⟩, fun h p ⟨f, hf, hp⟩ => h f hf p hp⟩
  constructor
  · rintro ⟨h, hm⟩
    exact ⟨hdistinct.mp h, fun f hf => node.files_ne_machine.mp (hmachine.mp hm f hf)⟩
  · rintro ⟨h, hm⟩
    exact ⟨hdistinct.mpr h, hmachine.mpr fun f hf => node.files_ne_machine.mpr (hm f hf)⟩

/-- A name that is one component of a path. -/
def IsComponent (v : Json) : Prop := ∃ s : String, v = .str s ∧ '/' ∉ s.toList

theorem called_of_component {flow : FlowConfig} {s : String} (h : flow.name = .str s)
    (hs : '/' ∉ s.toList) : node.called flow = s.toList := by
  rw [called, h, format, Json.format, lastName_of_no_slash hs]

/-- Whatever the directories are, flows whose names are distinct single components, none of them
`machine`, keep clear of each other. -/
theorem noClobber_of_components {c : AgentConfig} (hnames : ∀ f ∈ c.flows, IsComponent f.name)
    (hdistinct : c.flows.Pairwise fun f g => f.name ≠ g.name)
    (hmachine : ∀ f ∈ c.flows, f.name ≠ .str "machine") : node.NoClobber c := by
  refine (node.noClobber_iff c).mpr ⟨?_, ?_⟩
  · refine hdistinct.imp_of_mem fun {f g} hf hg hne hcalled => absurd ?_ hne
    obtain ⟨s, hs, hslash⟩ := hnames f hf
    obtain ⟨t, ht, htslash⟩ := hnames g hg
    rw [node.called_of_component hs hslash, node.called_of_component ht htslash] at hcalled
    rw [hs, ht, String.toList_inj.mp hcalled]
  · intro f hf hcalled
    obtain ⟨s, hs, hslash⟩ := hnames f hf
    rw [node.called_of_component hs hslash] at hcalled
    exact absurd (by rw [hs, String.toList_inj.mp hcalled]) (hmachine f hf)

/-! ### Names that lead to one place -/

/-- An internal flow with blank directories, as it is pulled and as it is decoded. -/
def internalRaw (name : String) : Json :=
  .obj [("type", .str "internal"), ("name", .str name), ("cert_output_dir", .str ""),
    ("key_output_dir", .str "")]

def internalFlow (name : String) : FlowConfig where
  type := .internal
  method := .x5c
  name := .str name
  certOutputDir := .str ""
  keyOutputDir := .str ""
  config := .internal (.construct [])
  postRenewalScript := .null
  scheduleSlot := .null
  renewBeforeDays := .null

/-- A Debian host. -/
def debian : Node where
  osFamily := "debian"
  loadPem := fun _ => .error ⟨.valueError, ""⟩
  cwd := []
  str := fun _ => ""

/-- **Two names, one file, and it is the machine's.** `machine` and `./machine` are two names, and
with blank directories both flows write over the certificate of the machine. -/
theorem clobbered :
    ¬ ∀ (node : Node) (hostname : String) (data : Dict) (c : AgentConfig),
      AgentConfig.fromDict hostname (.obj data) = .ok c →
      (∀ f ∈ c.flows, f.name ≠ .str "") → c.flows.Pairwise (fun f g => f.name ≠ g.name) →
      node.NoClobber c := by
  intro h
  have hclear := h debian "localhost"
    [("node_name", .str "host"),
      ("flows", .arr [internalRaw "machine", internalRaw "./machine"])]
    ⟨.str "host", none, [internalFlow "machine", internalFlow "./machine"]⟩
    (by decide) (by decide) (by decide)
  have hcert : debian.machineCert ∈
      [internalFlow "machine", internalFlow "./machine"].flatMap debian.files := by decide
  exact (hclear.machine _ hcert).1 rfl

end Node

end NextepAgent
