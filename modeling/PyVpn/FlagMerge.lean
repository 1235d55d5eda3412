import PyVpn.Cli
import PyVpn.ConfigTypes

/-! The flags of the command line against one construction. `__post_init__` runs on what the
file gives, before the flags are written over it: a value that no flag may replace is refused,
and `--port`, which has no range of its own, is never looked at. -/
namespace PyVpn

def Namespace.given (ns : Namespace) : ConfigField → Option Value
  | .dev => ns.dev.map .str
  | .proto => ns.proto.map fun s => .str s.val
  | .port => ns.port.map .int
  | .remote => ns.remote.map .str
  | .ifconfig => ns.ifconfig.map .str
  | .server => ns.server.map .str
  | .ifconfigPool => ns.ifconfigPool.map .str
  | .ca => ns.ca.map .str
  | .cert => ns.cert.map .str
  | .key => ns.key.map .str
  | .cipher => ns.cipher.map .str
  | .compLzo => ns.compLzo.map .bool
  | .keepaliveInterval => ns.keepalive.map fun p => .int p.1
  | .keepaliveTimeout => ns.keepalive.map fun p => .int p.2
  | .verb => ns.verb.map fun n => .int n.val
  | .redirectGateway => ns.redirectGateway.map .bool
  | .statusFile => ns.status.map .str
  | .user => ns.user.map .str
  | .extraOptions => none

def fileOptions (readText : String → Except PyError String) (ns : Namespace) :
    Except PyError Kwargs :=
  if truthy ns.config then do readOptions (← readText (ns.config.getD "")) else .ok ∅

def override (given : ConfigField → Option Value) (kwargs : Kwargs) : Kwargs :=
  (attributes.map Prod.snd).foldl
    (fun kwargs field => (given field).elim kwargs (kwargs.insert field)) kwargs

def mergedOnce (readText : String → Except PyError String) (ns : Namespace) :
    Except PyError Attrs := do
  Config.init (override ns.given (← fileOptions readText ns))

section Merge
variable {ns : Namespace} {kwargs : Kwargs} {readText : String → Except PyError String}

/-- The value that an entry of `vars(ns)` gives for a field. -/
def Flag.gives : Flag → ConfigField → Option Value
  | .keepalive val, .keepaliveInterval => val.map fun p => .int p.1
  | .keepalive val, .keepaliveTimeout => val.map fun p => .int p.2
  | .keepalive _, _ => none
  | .other key val, field =>
    if key = "config" then none
    else if key = "status" then (if field = .statusFile then val else none)
    else if attributes.lookup key = some field then val else none

theorem setFlag_apply (cfg : Attrs) (flag : Flag) (field : ConfigField) :
    setFlag cfg flag field = (flag.gives field).getD (cfg field) := by
  cases flag with
  | keepalive val =>
    cases val with
    | none => cases field <;> rfl
    | some p => cases field <;> rfl
  | other key val =>
    cases val with
    | none => simp [setFlag, Flag.gives]
    | some v =>
      simp only [setFlag, Flag.gives]
      by_cases hconfig : key = "config"
      · simp [hconfig]
      · by_cases hstatus : key = "status"
        · by_cases hfield : field = .statusFile
          · simp [hstatus, hfield]
          · simp [hstatus, hfield]
        · simp only [if_neg hconfig, if_neg hstatus]
          cases hattr : attributes.lookup key with
          | none => simp
          | some attr =>
            by_cases hfield : attr = field
            · subst hfield
              simp
            · simp [hfield, Function.update_of_ne (Ne.symm hfield)]

theorem foldl_setFlag (flags : List Flag) (cfg : Attrs) (field : ConfigField) :
    flags.foldl setFlag cfg field =
      flags.foldl (fun v flag => (flag.gives field).getD v) (cfg field) := by
  induction flags generalizing cfg with
  | nil => rfl
  | cons flag flags ih => rw [List.foldl_cons, List.foldl_cons, ih, setFlag_apply]

theorem vars_foldl (ns : Namespace) (cfg : Attrs) :
    ns.vars.foldl setFlag cfg = fun field => (ns.given field).getD (cfg field) := by
  funext field
  rw [foldl_setFlag]
  cases field <;> rfl

theorem foldl_override (given : ConfigField → Option Value) (fields : List ConfigField)
    (kwargs : Kwargs) (field : ConfigField) :
    (fields.foldl (fun kwargs field => (given field).elim kwargs (kwargs.insert field))
      kwargs).lookup field =
      if field ∈ fields then (given field).or (kwargs.lookup field) else kwargs.lookup field := by
  induction fields generalizing kwargs with
  | nil => simp
  | cons first fields ih =>
    rw [List.foldl_cons, ih]
    by_cases hfirst : field = first
    · subst hfirst
      cases hgiven : given field with
      | none => simp
      | some v => simp
    · have hkept : ((given first).elim kwargs (kwargs.insert first)).lookup field =
          kwargs.lookup field := by
        cases given first with
        | none => rfl
        | some v => exact AList.lookup_insert_ne hfirst
      rw [hkept]
      simp [hfirst]

theorem initFields_override (given : ConfigField → Option Value) (kwargs : Kwargs)
    (field : ConfigField) :
    initFields (override given kwargs) field = (given field).getD (initFields kwargs field) := by
  have hall : field ∈ attributes.map Prod.snd := by
    cases field <;> decide
  rw [initFields, override, foldl_override, if_pos hall, initFields]
  cases given field <;> rfl

theorem parseArgs_eq {scan : List String → Except PyError (List CliOption)} {argv : List String}
    (h : parserParseArgs scan argv = .ok ns) :
    parseArgs scan readText argv = do
      let kwargs ← fileOptions readText ns
      Config.postInit (initFields kwargs)
      return initFields (override ns.given kwargs) := by
  have hmerged (kwargs : Kwargs) :
      ns.vars.foldl setFlag (initFields kwargs) = initFields (override ns.given kwargs) := by
    rw [vars_foldl]
    funext field
    exact (initFields_override ns.given kwargs field).symm
  have hstart {α β : Type} (a : α) (f : α → Except PyError β) : Except.ok a >>= f = f a := rfl
  unfold parseArgs fileOptions
  rw [h]
  by_cases hconfig : truthy ns.config = true
  · simp only [hstart, if_pos hconfig, Config.fromFile, parseConfig, Config.init, bind_assoc,
      pure_bind, ← hmerged]
  · simp only [hstart, if_neg hconfig, Config.init, bind_assoc, pure_bind, ← hmerged]

/-! What `__post_init__` says of the one and of the other. -/

/-- The checks of `__post_init__`, field by field. -/
def Passes (self : Attrs) : ConfigField → Prop
  | .proto => (self .proto).isProto = true
  | .port => (self .port).within 1 65535 = .ok true
  | .verb => (self .verb).within 0 4 = .ok true
  | _ => True

/-- The fields that are compared with numbers hold integers. -/
structure Numbered (cfg : Attrs) : Prop where
  port : ∃ n, cfg .port = .int n
  verb : ∃ n, cfg .verb = .int n

theorem within_int (low high n : Int) :
    (Value.int n).within low high = .ok true ↔ low ≤ n ∧ n ≤ high := by
  simp [Value.within]

theorem Numbered.postInit_cases {self : Attrs} (h : Numbered self) :
    ((∀ field, Passes self field) ∧ Config.postInit self = .ok ()) ∨
      ((¬ ∀ field, Passes self field) ∧ Config.postInit self = .error .valueError) := by
  obtain ⟨port, hport⟩ := h.port
  obtain ⟨verb, hverb⟩ := h.verb
  have hpasses : (∀ field, Passes self field) ↔ (self .proto).isProto = true ∧
      (1 ≤ port ∧ port ≤ 65535) ∧ (0 ≤ verb ∧ verb ≤ 4) := by
    rw [← within_int, ← within_int, ← hport, ← hverb]
    constructor
    · intro hall
      exact ⟨hall .proto, hall .port, hall .verb⟩
    · intro hthree field
      obtain ⟨hproto, hportRange, hverbRange⟩ := hthree
      cases field <;> trivial
  rw [hpasses, Config.postInit_run hport hverb]
  split
  · exact .inl ⟨‹_›, rfl⟩
  · exact .inr ⟨‹_›, rfl⟩

theorem fileOptions_numbered (h : fileOptions readText ns = .ok kwargs) :
    Numbered (initFields kwargs) := by
  unfold fileOptions at h
  split at h
  · obtain ⟨text, -, hread⟩ := bind_eq_ok.mp h
    obtain ⟨hrecords, hcounted⟩ := readOptions_records hread
    exact ⟨hrecords.number_int hcounted (.inl rfl) rfl rfl,
      hrecords.number_int hcounted (.inr rfl) rfl rfl⟩
  · cases h
    exact ⟨⟨1194, rfl⟩, ⟨1, rfl⟩⟩

theorem Numbered.override (h : Numbered (initFields kwargs)) (ns : Namespace) :
    Numbered (initFields (override ns.given kwargs)) := by
  constructor
  · rw [initFields_override, Namespace.given]
    cases ns.port with
    | none => exact h.port
    | some n => exact ⟨n, rfl⟩
  · rw [initFields_override, Namespace.given]
    cases ns.verb with
    | none => exact h.verb
    | some n => exact ⟨n, rfl⟩

/-- `--port` is not given, or it is a port. -/
def Namespace.PortInRange (ns : Namespace) : Prop := ∀ n, ns.port = some n → 1 ≤ n ∧ n ≤ 65535

/-- The words that `--proto` and `--verb` take pass the checks; `--port` takes any number. -/
theorem passes_given {field : ConfigField} {v : Value} (h : ns.given field = some v) :
    Passes (initFields (override ns.given kwargs)) field ↔ (field = .port → ns.PortInRange) := by
  cases field with
  | proto =>
    refine iff_of_true ?_ fun heq => absurd heq (by decide)
    obtain ⟨⟨s, hs⟩, -, hv⟩ := Option.map_eq_some_iff.mp h
    rw [Passes, initFields_override, h, ← hv]
    simpa [Value.isProto] using hs
  | verb =>
    refine iff_of_true ?_ fun heq => absurd heq (by decide)
    obtain ⟨⟨n, hlow, hhigh⟩, -, hv⟩ := Option.map_eq_some_iff.mp h
    rw [Passes, initFields_override, h, ← hv]
    exact (within_int 0 4 n).mpr ⟨hlow, by omega⟩
  | port =>
    obtain ⟨n, hn, hv⟩ := Option.map_eq_some_iff.mp h
    rw [Passes, initFields_override, h, ← hv]
    change (Value.int n).within 1 65535 = _ ↔ _
    rw [within_int, Namespace.PortInRange, hn]
    simp
  | _ => exact iff_of_true trivial fun heq => absurd heq (by decide)

theorem passes_kept {field : ConfigField} (h : ns.given field = none) :
    Passes (initFields (override ns.given kwargs)) field ↔ Passes (initFields kwargs) field := by
  have hkept : initFields (override ns.given kwargs) field = initFields kwargs field := by
    rw [initFields_override, h]
    rfl
  cases field <;> first | exact Iff.rfl | rw [Passes, hkept, Passes]

theorem merged_passes_iff (ns : Namespace) (kwargs : Kwargs) :
    (∀ field, Passes (initFields (override ns.given kwargs)) field) ↔
      ns.PortInRange ∧ ∀ field, ns.given field = none → Passes (initFields kwargs) field := by
  constructor
  · intro hall
    refine ⟨?_, fun field hnone => (passes_kept hnone).mp (hall field)⟩
    intro n hn
    have hgiven : ns.given .port = some (.int n) := by rw [Namespace.given, hn]; rfl
    exact (passes_given hgiven).mp (hall .port) rfl n hn
  · intro hmerged field
    obtain ⟨hport, hrest⟩ := hmerged
    cases hgiven : ns.given field with
    | none => exact (passes_kept hgiven).mpr (hrest field hgiven)
    | some v => exact (passes_given hgiven).mpr fun _ => hport

end Merge

/-- The outcome is that of the one construction, and what is returned passes the checks. -/
def MergesOnce (result merged : Except PyError Attrs) : Prop :=
  result = merged ∧ ∀ cfg, result = .ok cfg → Config.postInit cfg = .ok ()

/-- The checks say the same before the flags are written and after it: over options that pass,
`--port` is a port; and of options that do not pass, one that fails stays, or `--port` fails. -/
structure ChecksAgree (ns : Namespace) (kwargs : Kwargs) : Prop where
  passing : (∀ field, Passes (initFields kwargs) field) → ns.PortInRange
  failing : (¬ ∀ field, Passes (initFields kwargs) field) → ns.PortInRange →
    ∃ field, ns.given field = none ∧ ¬ Passes (initFields kwargs) field

/-- The command line and the file are merged like one configuration exactly if the checks of
`__post_init__` on the file alone say what they say of both. -/
theorem flags_merge_iff (scan : List String → Except PyError (List CliOption))
    (readText : String → Except PyError String) (argv : List String) (ns : Namespace)
    (h : parserParseArgs scan argv = .ok ns) :
    MergesOnce (parseArgs scan readText argv) (mergedOnce readText ns) ↔
      ∀ kwargs, fileOptions readText ns = .ok kwargs → ChecksAgree ns kwargs := by
  rw [parseArgs_eq h, mergedOnce]
  cases hfile : fileOptions readText ns with
  | error e => exact iff_of_true ⟨rfl, fun cfg heq => nomatch heq⟩ fun kwargs heq => nomatch heq
  | ok kwargs =>
    have hnumbered := fileOptions_numbered hfile
    have hmerged := merged_passes_iff ns kwargs
    have hsame : (∀ kwargs', Except.ok kwargs = Except.ok (ε := PyError) kwargs' →
        ChecksAgree ns kwargs') ↔ ChecksAgree ns kwargs :=
      ⟨fun hall => hall kwargs rfl, fun hagree kwargs' heq => Except.ok.inj heq ▸ hagree⟩
    rw [hsame]
    change MergesOnce (Config.postInit (initFields kwargs) >>= fun _ => _)
      (Config.postInit (initFields (override ns.given kwargs)) >>= fun _ => _) ↔ _
    obtain ⟨hpass, hfirst⟩ | ⟨hfail, hfirst⟩ := hnumbered.postInit_cases
    · obtain ⟨hpass', hsecond⟩ | ⟨hfail', hsecond⟩ := (hnumbered.override ns).postInit_cases
      · rw [hfirst, hsecond]
        refine iff_of_true ⟨rfl, ?_⟩ ⟨fun _ => (hmerged.mp hpass').1, fun hfail => absurd hpass hfail⟩
        intro cfg heq
        rwa [← Except.ok.inj heq]
      · rw [hfirst, hsecond]
        refine iff_of_false (fun hmerges => nomatch hmerges.1) ?_
        intro hagree
        exact hfail' (hmerged.mpr ⟨hagree.passing hpass, fun field _ => hpass field⟩)
    · obtain ⟨hpass', hsecond⟩ | ⟨hfail', hsecond⟩ := (hnumbered.override ns).postInit_cases
      · rw [hfirst, hsecond]
        refine iff_of_false (fun hmerges => nomatch hmerges.1) ?_
        intro hagree
        obtain ⟨hport, hrest⟩ := hmerged.mp hpass'
        obtain ⟨field, hnone, hfails⟩ := hagree.failing hfail hport
        exact hfails (hrest field hnone)
      · rw [hfirst, hsecond]
        refine iff_of_true ⟨rfl, fun cfg heq => nomatch heq⟩ ⟨fun hpass => absurd hpass hfail, ?_⟩
        intro _ hport
        by_contra hnone
        refine hfail' (hmerged.mpr ⟨hport, fun field hgiven => ?_⟩)
        by_contra hfails
        exact hnone ⟨field, hgiven, hfails⟩

theorem flags_merge_iff_server :
    MergesOnce
      (parseArgs (fun _ => .ok [.config "server.conf", .port "3300", .verb "2"])
        (fun _ => .ok "port 2200\nproto tcp\nverb 3")
        ["-c", "server.conf", "--port", "3300", "--verb", "2"])
      (mergedOnce (fun _ => .ok "port 2200\nproto tcp\nverb 3")
        { config := some "server.conf", port := some 3300, verb := some ⟨2, by decide⟩ }) := by
  refine (flags_merge_iff _ _ _ _ rfl).mpr fun kwargs hfile => ⟨fun _ => ?_, fun hfail => ?_⟩
  · intro n hport
    cases hport
    decide
  · refine absurd (fun field => ?_) hfail
    cases hfile
    cases field with
    | proto => rfl
    | port => rfl
    | verb => rfl
    | _ => trivial

/-- `--port 70000` is returned, and a file with `port 70000` is refused although `--port 1194`
replaces it. -/
theorem port_checked_early :
    (∃ cfg, parseArgs (fun _ => .ok [.port "70000"]) (fun _ => .error .osError)
        ["--port", "70000"] = .ok cfg ∧
      cfg .port = .int 70000 ∧ Config.postInit cfg = .error .valueError) ∧
    mergedOnce (fun _ => .error .osError) { port := some 70000 } = .error .valueError ∧
    ¬ MergesOnce
      (parseArgs (fun _ => .ok [.port "70000"]) (fun _ => .error .osError) ["--port", "70000"])
      (mergedOnce (fun _ => .error .osError) { port := some 70000 }) ∧
    parseArgs (fun _ => .ok [.config "server.conf", .port "1194"]) (fun _ => .ok "port 70000")
      ["-c", "server.conf", "--port", "1194"] = .error .valueError ∧
    (∃ cfg, mergedOnce (fun _ => .ok "port 70000")
        { config := some "server.conf", port := some 1194 } = .ok cfg ∧
      Config.postInit cfg = .ok ()) := by
  have hreturned : ∃ cfg, parseArgs (fun _ => .ok [.port "70000"]) (fun _ => .error .osError)
      ["--port", "70000"] = .ok cfg ∧
        cfg .port = .int 70000 ∧ Config.postInit cfg = .error .valueError := ⟨_, rfl, rfl, rfl⟩
  refine ⟨hreturned, rfl, ?_, rfl, ⟨_, rfl, rfl⟩⟩
  intro hmerges
  obtain ⟨cfg, hok, -, hfails⟩ := hreturned
  have hpasses := hmerges.2 cfg hok
  rw [hfails] at hpasses
  cases hpasses

end PyVpn
