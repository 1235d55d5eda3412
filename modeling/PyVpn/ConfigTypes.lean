import PyVpn.ConfigFile

/-! When an option file gives a configuration whose fields have their annotated types. A
directive stores its words as they are, so the number of words decides the type: too few or
too many of them leave a list in the field, or make `int` raise `TypeError`. -/
namespace PyVpn

def WellTyped (self : Attrs) : Prop := ∀ field, (self field).HasType field.type

section Types
variable {v : Value} {self : Attrs}

theorem Value.HasType.str (h : v.HasType .str) : ∃ s, v = .str s := by
  cases v with
  | str s => exact ⟨s, rfl⟩
  | _ => exact h.elim

theorem Value.HasType.int (h : v.HasType .int) : ∃ n, v = .int n := by
  cases v with
  | int n => exact ⟨n, rfl⟩
  | _ => exact h.elim

theorem Value.HasType.bool (h : v.HasType .bool) : ∃ b, v = .bool b := by
  cases v with
  | bool b => exact ⟨b, rfl⟩
  | _ => exact h.elim

theorem Value.HasType.dict (h : v.HasType .dict) : ∃ options, v = .dict options := by
  cases v with
  | dict options => exact ⟨options, rfl⟩
  | _ => exact h.elim

theorem Value.HasType.optionalStr (h : v.HasType .optionalStr) : ∃ s, v = .ofOption s := by
  cases v with
  | none => exact ⟨Option.none, rfl⟩
  | str s => exact ⟨some s, rfl⟩
  | _ => exact h.elim

theorem Value.ofOption_hasType (s : Option String) : (Value.ofOption s).HasType .optionalStr := by
  cases s with
  | none => trivial
  | some s => trivial

/-- The well-typed objects are the configurations of the rest of the development. -/
theorem wellTyped_iff : WellTyped self ↔ ∃ config : Config, self = config.attrs := by
  constructor
  · intro h
    obtain ⟨dev, hdev⟩ := (h .dev).str
    obtain ⟨proto, hproto⟩ := (h .proto).str
    obtain ⟨port, hport⟩ := (h .port).int
    obtain ⟨remote, hremote⟩ := (h .remote).optionalStr
    obtain ⟨ifconfig, hifconfig⟩ := (h .ifconfig).optionalStr
    obtain ⟨server, hserver⟩ := (h .server).optionalStr
    obtain ⟨ifconfigPool, hifconfigPool⟩ := (h .ifconfigPool).optionalStr
    obtain ⟨ca, hca⟩ := (h .ca).optionalStr
    obtain ⟨cert, hcert⟩ := (h .cert).optionalStr
    obtain ⟨key, hkey⟩ := (h .key).optionalStr
    obtain ⟨cipher, hcipher⟩ := (h .cipher).str
    obtain ⟨compLzo, hcompLzo⟩ := (h .compLzo).bool
    obtain ⟨keepaliveInterval, hkeepaliveInterval⟩ := (h .keepaliveInterval).int
    obtain ⟨keepaliveTimeout, hkeepaliveTimeout⟩ := (h .keepaliveTimeout).int
    obtain ⟨verb, hverb⟩ := (h .verb).int
    obtain ⟨redirectGateway, hredirectGateway⟩ := (h .redirectGateway).bool
    obtain ⟨statusFile, hstatusFile⟩ := (h .statusFile).optionalStr
    obtain ⟨user, huser⟩ := (h .user).optionalStr
    obtain ⟨extraOptions, hextraOptions⟩ := (h .extraOptions).dict
    refine ⟨⟨dev, proto, port, remote, ifconfig, server, ifconfigPool, ca, cert, key, cipher,
      compLzo, keepaliveInterval, keepaliveTimeout, verb, redirectGateway, statusFile, user,
      extraOptions⟩, ?_⟩
    funext field
    cases field <;> assumption
  · intro h
    obtain ⟨config, rfl⟩ := h
    intro field
    cases field <;> first | trivial | exact Value.ofOption_hasType _

theorem default_wellTyped : WellTyped ({} : Config).attrs := wellTyped_iff.mpr ⟨{}, rfl⟩

end Types

/-! The lines of a file that are read. -/

/-- Directive and arguments of a line that is neither empty nor a comment. -/
def directiveLine (line : List Char) : Option (String × List String) :=
  let line := strip line
  if line = [] ∨ line.head? = some '#' ∨ line.head? = some ';' then none
  else
    match (splitWords line).map String.ofList with
    | [] => none
    | directive :: args => some (directive, args)

def directiveLines (text : String) : List (String × List String) :=
  (textLines text).filterMap directiveLine

def lastArgs (directive : String) (lines : List (String × List String)) : Option (List String) :=
  lines.reverse.lookup directive

theorem parseLine_skip {kwargs : Kwargs} {line : List Char} (h : directiveLine line = none) :
    parseLine kwargs line = .ok kwargs := by
  unfold directiveLine at h
  unfold parseLine
  by_cases hskip : strip line = [] ∨ (strip line).head? = some '#' ∨ (strip line).head? = some ';'
  · exact if_pos hskip
  · have hwords := splitWords_strip fun hempty => hskip (.inl hempty)
    simp only [if_neg hskip] at h ⊢
    cases hsplit : (splitWords (strip line)).map String.ofList with
    | nil => exact absurd (List.map_eq_nil_iff.mp hsplit) hwords
    | cons directive args =>
      rw [hsplit] at h
      cases h

theorem parseLine_directive {kwargs : Kwargs} {line : List Char} {directive : String}
    {args : List String} (h : directiveLine line = some (directive, args)) :
    parseLine kwargs line = parseDirective kwargs directive args := by
  unfold directiveLine at h
  unfold parseLine
  by_cases hskip : strip line = [] ∨ (strip line).head? = some '#' ∨ (strip line).head? = some ';'
  · simp only [if_pos hskip] at h
    cases h
  · simp only [if_neg hskip] at h ⊢
    cases hsplit : (splitWords (strip line)).map String.ofList with
    | nil =>
      rw [hsplit] at h
      cases h
    | cons d as =>
      rw [hsplit] at h
      cases h
      rfl

def parseDirectives (lines : List (String × List String)) (kwargs : Kwargs) :
    Except PyError Kwargs :=
  lines.foldlM (fun kwargs line => parseDirective kwargs line.1 line.2) kwargs

theorem readOptions_eq (text : String) :
    readOptions text = parseDirectives (directiveLines text) ∅ := by
  unfold readOptions directiveLines parseDirectives
  generalize (∅ : Kwargs) = kwargs
  induction textLines text generalizing kwargs with
  | nil => rfl
  | cons line lines ih =>
    rw [List.foldlM_cons]
    cases hline : directiveLine line with
    | none =>
      rw [parseLine_skip hline, List.filterMap_cons_none hline]
      exact ih kwargs
    | some directive =>
      rw [parseLine_directive hline, List.filterMap_cons_some hline, List.foldlM_cons]
      cases hrun : parseDirective kwargs directive.1 directive.2 with
      | error e => rfl
      | ok kwargs' => exact ih kwargs'

/-! What one line stores. -/

def numbers (line : String × List String) : List String :=
  if line.1 = "port" ∨ line.1 = "verb" then
    if line.2.length = 1 then line.2 else []
  else if line.1 = "keepalive" then line.2.take 2
  else if line.1 = "server" ∧ line.2.length = 2 then splitDots (line.2.getD 1 "")
  else []

def Unreadable (line : String × List String) : Prop :=
  ∃ s ∈ numbers line, intOfStr s = .error .valueError

def Miscounted (line : String × List String) : Prop :=
  (line.1 = "port" ∨ line.1 = "verb") ∧ line.2.length ≠ 1

/-- How many words a directive can have for its value to be of the annotated type. -/
def AcceptedCount (directive : String) (n : Nat) : Prop :=
  if directive = "server" then n = 1 ∨ n = 2
  else if directive = "ifconfig-pool" then 1 ≤ n
  else if directive ∈ ["dev", "proto", "port", "remote", "ifconfig", "ca", "cert", "key", "cipher",
    "verb", "status", "user"] then n = 1
  else True

/-- `_set_value`: the value that is stored. -/
def valueFor (attr : ConfigField) (value : Value) : Except PyError Value :=
  match attr.type with
  | .int => value.toInt.map .int
  | .bool => value.toBool.map .bool
  | _ => .ok value

def wordsValue (args : List String) : Value :=
  match args with
  | [arg] => .str arg
  | _ => .list args

def lineValue (attr : ConfigField) (directive : String) (args : List String) :
    Except PyError Value :=
  if directive ∈ ["comp-lzo", "redirect-gateway"] then
    match args with
    | arg :: _ => valueFor attr (.str arg)
    | [] => .ok (.bool true)
  else if directive ∈ netmaskDirectives ∧ args.length = 2 then
    (netmaskToCidr (args.getD 1 "")).map fun prefixlen =>
      .str (args.getD 0 "" ++ "/" ++ toString prefixlen)
  else if directive ∈ poolDirectives ∧ args.length ≥ 2 then
    .ok (.str (args.getD 0 "" ++ "-" ++ args.getD 1 ""))
  else valueFor attr (wordsValue args)

section Lines
variable {attr : ConfigField} {directive : String} {args : List String} {kwargs : Kwargs}

theorem setValue_eq (kwargs : Kwargs) (attr : ConfigField) (value : Value) :
    setValue kwargs attr value = (valueFor attr value).map (kwargs.insert attr) := by
  unfold setValue valueFor
  cases attr.type with
  | int => cases value.toInt <;> rfl
  | bool => cases value.toBool <;> rfl
  | _ => rfl

theorem parseDirective_field (h : directives.lookup directive = some (.field attr))
    (kwargs : Kwargs) (args : List String) :
    parseDirective kwargs directive args =
      (lineValue attr directive args).map (kwargs.insert attr) := by
  unfold parseDirective lineValue
  simp only [h, setValue_eq]
  by_cases hflag : directive ∈ ["comp-lzo", "redirect-gateway"]
  · simp only [if_pos hflag]
    cases args <;> rfl
  · by_cases hmask : directive ∈ netmaskDirectives ∧ args.length = 2
    · simp only [if_neg hflag, if_pos hmask]
      cases netmaskToCidr (args.getD 1 "") <;> rfl
    · by_cases hpool : directive ∈ poolDirectives ∧ args.length ≥ 2
      · simp only [if_neg hflag, if_neg hmask, if_pos hpool]
        rfl
      · simp only [if_neg hflag, if_neg hmask, if_neg hpool]
        rfl

theorem wordsValue_str : (wordsValue args).HasType .str ↔ args.length = 1 := by
  unfold wordsValue
  split
  · exact iff_of_true trivial rfl
  · rename_i hwords
    refine iff_of_false id fun hone => ?_
    obtain ⟨arg, rfl⟩ := List.length_eq_one_iff.mp hone
    exact hwords arg rfl

theorem wordsValue_optionalStr : (wordsValue args).HasType .optionalStr ↔ args.length = 1 := by
  have hsame : (wordsValue args).HasType .optionalStr ↔ (wordsValue args).HasType .str := by
    unfold wordsValue
    split <;> exact Iff.rfl
  exact hsame.trans wordsValue_str

inductive Stores (attr : ConfigField) (directive : String) (args : List String) :
    Except PyError Value → Prop
  | unreadable (h : Unreadable (directive, args)) : Stores attr directive args (.error .valueError)
  | miscounted (hreadable : ¬ Unreadable (directive, args)) (h : Miscounted (directive, args)) :
      Stores attr directive args (.error .typeError)
  | value (v : Value) (hreadable : ¬ Unreadable (directive, args))
      (hcounted : ¬ Miscounted (directive, args))
      (htype : v.HasType attr.type ↔ AcceptedCount directive args.length) :
      Stores attr directive args (.ok v)

theorem not_miscounted (hport : directive ≠ "port") (hverb : directive ≠ "verb") :
    ¬ Miscounted (directive, args) := fun h => h.1.elim hport hverb

theorem not_unreadable (h : numbers (directive, args) = []) : ¬ Unreadable (directive, args) := by
  intro hunreadable
  obtain ⟨s, hs, -⟩ := hunreadable
  rw [h] at hs
  cases hs

theorem text_stores (htext : attr.type = .str ∨ attr.type = .optionalStr)
    (hdirective : directive ∈ ["dev", "proto", "remote", "ifconfig", "ca", "cert", "key", "cipher",
      "status", "user"]) :
    Stores attr directive args (lineValue attr directive args) := by
  have hne : directive ≠ "port" ∧ directive ≠ "verb" ∧ directive ≠ "keepalive" ∧
      directive ≠ "server" ∧ directive ≠ "ifconfig-pool" ∧ directive ≠ "comp-lzo" ∧
      directive ≠ "redirect-gateway" := by
    refine ⟨?_, ?_, ?_, ?_, ?_, ?_, ?_⟩ <;> · rintro rfl; exact absurd hdirective (by decide)
  obtain ⟨hport, hverb, hkeepalive, hserver, hpool, hlzo, hgateway⟩ := hne
  have hnumbers : numbers (directive, args) = [] := by
    simp [numbers, hport, hverb, hkeepalive, hserver]
  have hstored : lineValue attr directive args = .ok (wordsValue args) := by
    obtain htype | htype := htext <;>
      simp [lineValue, netmaskDirectives, poolDirectives, hserver, hpool, hlzo, hgateway, valueFor,
        htype]
  have hcount : AcceptedCount directive args.length ↔ args.length = 1 := by
    have hword : directive ∈ ["dev", "proto", "port", "remote", "ifconfig", "ca", "cert", "key",
        "cipher", "verb", "status", "user"] := by
      simp only [List.mem_cons, List.not_mem_nil, or_false] at hdirective ⊢
      tauto
    rw [AcceptedCount, if_neg hserver, if_neg hpool, if_pos hword]
  rw [hstored]
  refine .value _ (not_unreadable hnumbers) (not_miscounted hport hverb) ?_
  rw [hcount]
  obtain htype | htype := htext
  · rw [htype, wordsValue_str]
  · rw [htype, wordsValue_optionalStr]

theorem number_stores (htype : attr.type = .int) (hdirective : directive = "port" ∨ directive = "verb") :
    Stores attr directive args (lineValue attr directive args) := by
  have hline : lineValue attr directive args = (wordsValue args).toInt.map .int := by
    obtain rfl | rfl := hdirective <;>
      simp [lineValue, netmaskDirectives, poolDirectives, valueFor, htype]
  have hcount : AcceptedCount directive args.length ↔ args.length = 1 := by
    obtain rfl | rfl := hdirective <;> simp [AcceptedCount]
  rw [hline]
  by_cases hone : args.length = 1
  · obtain ⟨s, rfl⟩ := List.length_eq_one_iff.mp hone
    have hnumbers : numbers (directive, [s]) = [s] := by
      rw [numbers, if_pos hdirective]
      rfl
    change Stores attr directive [s] ((intOfStr s).map .int)
    cases intOfStr_cases s with
    | inl hraises =>
      rw [hraises]
      exact .unreadable ⟨s, by rw [hnumbers]; exact List.mem_singleton_self s, hraises⟩
    | inr hreturns =>
      obtain ⟨n, hn⟩ := hreturns
      rw [hn]
      refine .value _ ?_ (fun hmiscounted => hmiscounted.2 rfl) ?_
      · intro hunreadable
        obtain ⟨s', hs', hraises⟩ := hunreadable
        rw [hnumbers, List.mem_singleton] at hs'
        rw [hs', hn] at hraises
        cases hraises
      · rw [hcount, htype]
        exact iff_of_true trivial rfl
  · have hnumbers : numbers (directive, args) = [] := by
      rw [numbers, if_pos hdirective, if_neg hone]
    have hlist : wordsValue args = .list args := by
      unfold wordsValue
      split
      · exact absurd rfl hone
      · rfl
    rw [hlist]
    exact .miscounted (not_unreadable hnumbers) ⟨hdirective, hone⟩

theorem netmaskToCidr_cases (netmask : String) :
    ((∃ s ∈ splitDots netmask, intOfStr s = .error .valueError) ∧
      netmaskToCidr netmask = .error .valueError) ∨
    ((∀ s ∈ splitDots netmask, intOfStr s ≠ .error .valueError) ∧
      ∃ octets, (splitDots netmask).mapM intOfStr = .ok octets ∧
        netmaskToCidr netmask = .ok ((octets.flatMap format08b).count '1')) := by
  unfold netmaskToCidr
  obtain ⟨hraises, hrun⟩ | ⟨hreads, octets, hrun⟩ := mapM_cases intOfStr_cases (splitDots netmask)
  · rw [hrun]
    exact .inl ⟨hraises, rfl⟩
  · rw [hrun]
    exact .inr ⟨hreads, octets, rfl, rfl⟩

theorem server_stores : Stores .server "server" args (lineValue .server "server" args) := by
  have hcounted : ¬ Miscounted ("server", args) := not_miscounted (by decide) (by decide)
  by_cases htwo : args.length = 2
  · have hnumbers : numbers ("server", args) = splitDots (args.getD 1 "") := by
      simp [numbers, htwo]
    have hline : lineValue .server "server" args =
        (netmaskToCidr (args.getD 1 "")).map fun prefixlen =>
          .str (args.getD 0 "" ++ "/" ++ toString prefixlen) := by
      unfold lineValue
      rw [if_neg (by decide), if_pos ⟨by decide, htwo⟩]
    rw [hline]
    obtain ⟨hraises, hrun⟩ | ⟨hreads, octets, -, hrun⟩ := netmaskToCidr_cases (args.getD 1 "")
    · rw [hrun]
      exact .unreadable (by rwa [Unreadable, hnumbers])
    · rw [hrun]
      refine .value _ ?_ hcounted (iff_of_true trivial (.inr htwo))
      rw [Unreadable, hnumbers]
      intro hunreadable
      obtain ⟨s, hs, hraises⟩ := hunreadable
      exact hreads s hs hraises
  · have hline : lineValue .server "server" args = .ok (wordsValue args) := by
      simp [lineValue, htwo, poolDirectives, valueFor, ConfigField.type]
    have hcount : AcceptedCount "server" args.length ↔ args.length = 1 := by
      simp [AcceptedCount, htwo]
    rw [hline]
    refine .value _ (not_unreadable (by simp [numbers, htwo])) hcounted ?_
    rw [hcount]
    exact wordsValue_optionalStr

theorem pool_stores :
    Stores .ifconfigPool "ifconfig-pool" args (lineValue .ifconfigPool "ifconfig-pool" args) := by
  have hcounted : ¬ Miscounted ("ifconfig-pool", args) := not_miscounted (by decide) (by decide)
  have hreadable : ¬ Unreadable ("ifconfig-pool", args) := not_unreadable (by simp [numbers])
  have hcount : AcceptedCount "ifconfig-pool" args.length ↔ 1 ≤ args.length := by
    simp [AcceptedCount]
  by_cases htwo : args.length ≥ 2
  · have hline : lineValue .ifconfigPool "ifconfig-pool" args =
        .ok (.str (args.getD 0 "" ++ "-" ++ args.getD 1 "")) := by
      simp [lineValue, netmaskDirectives, poolDirectives, htwo]
    rw [hline]
    exact .value _ hreadable hcounted (iff_of_true trivial (hcount.mpr (by omega)))
  · have hline : lineValue .ifconfigPool "ifconfig-pool" args = .ok (wordsValue args) := by
      simp [lineValue, netmaskDirectives, poolDirectives, htwo, valueFor, ConfigField.type]
    rw [hline]
    refine .value _ hreadable hcounted (wordsValue_optionalStr.trans ?_)
    rw [hcount]
    omega

theorem switch_stores (htype : attr.type = .bool)
    (hdirective : directive = "comp-lzo" ∨ directive = "redirect-gateway") :
    Stores attr directive args (lineValue attr directive args) := by
  have hmem : directive ∈ ["comp-lzo", "redirect-gateway"] := by simpa using hdirective
  have hcounted : ¬ Miscounted (directive, args) := by
    obtain rfl | rfl := hdirective <;> exact not_miscounted (by decide) (by decide)
  have hreadable : ¬ Unreadable (directive, args) := by
    obtain rfl | rfl := hdirective <;> exact not_unreadable (by simp [numbers])
  have hcount : AcceptedCount directive args.length := by
    obtain rfl | rfl := hdirective <;> simp [AcceptedCount]
  unfold lineValue
  rw [if_pos hmem]
  cases args with
  | nil => exact .value _ hreadable hcounted (iff_of_true (by rw [htype]; trivial) hcount)
  | cons arg args =>
    simp only [valueFor, htype]
    exact .value _ hreadable hcounted (iff_of_true (by rw [htype]; trivial) hcount)

theorem mem_directives {target : Target} (h : directives.lookup directive = some target) :
    (directive, target) ∈ directives := by
  obtain ⟨before, after, htable, -⟩ := List.lookup_eq_some_iff.mp h
  rw [htable]
  exact List.mem_append_right _ List.mem_cons_self

theorem lineValue_stores (h : directives.lookup directive = some (.field attr))
    (args : List String) :
    Stores attr directive args (lineValue attr directive args) := by
  have hmem := mem_directives h
  simp only [directives, List.mem_cons, Prod.mk.injEq, Target.field.injEq, List.not_mem_nil,
    or_false, reduceCtorEq, and_false, false_or] at hmem
  rcases hmem with ⟨rfl, rfl⟩ | ⟨rfl, rfl⟩ | ⟨rfl, rfl⟩ | ⟨rfl, rfl⟩ | ⟨rfl, rfl⟩ | ⟨rfl, rfl⟩ |
    ⟨rfl, rfl⟩ | ⟨rfl, rfl⟩ | ⟨rfl, rfl⟩ | ⟨rfl, rfl⟩ | ⟨rfl, rfl⟩ | ⟨rfl, rfl⟩ | ⟨rfl, rfl⟩ |
    ⟨rfl, rfl⟩ | ⟨rfl, rfl⟩ | ⟨rfl, rfl⟩
  all_goals first
    | exact text_stores (by decide) (by decide)
    | exact number_stores rfl (by decide)
    | exact switch_stores rfl (by decide)
    | exact server_stores
    | exact pool_stores

theorem directive_unique {other : String} {target : Target}
    (h : directives.lookup directive = some target) (hother : directives.lookup other = some target) :
    directive = other := by
  have hunique : ∀ p ∈ directives, ∀ q ∈ directives, p.2 = q.2 → p.1 = q.1 := by decide
  exact hunique _ (mem_directives h) _ (mem_directives hother) rfl

theorem pair_directive {first second : ConfigField}
    (h : directives.lookup directive = some (.pair first second)) :
    directive = "keepalive" ∧ first = .keepaliveInterval ∧ second = .keepaliveTimeout := by
  have hmem := mem_directives h
  simpa [directives] using hmem

/-- Fields that no directive has for itself get values of their type, and the others keep
theirs. -/
def Aside (kwargs kwargs' : Kwargs) : Prop :=
  (∀ directive attr, directives.lookup directive = some (.field attr) →
    kwargs'.lookup attr = kwargs.lookup attr) ∧
  ∀ attr v, kwargs'.lookup attr = some v → kwargs.lookup attr = some v ∨ v.HasType attr.type

theorem Aside.insert {v : Value}
    (hattr : ∀ directive, directives.lookup directive ≠ some (.field attr))
    (hv : v.HasType attr.type) (kwargs : Kwargs) : Aside kwargs (kwargs.insert attr v) := by
  constructor
  · intro directive other h
    have hne : other ≠ attr := fun heq => hattr directive (heq ▸ h)
    exact AList.lookup_insert_ne hne
  · intro other w h
    by_cases hother : other = attr
    · subst hother
      rw [AList.lookup_insert] at h
      exact .inr (Option.some.inj h ▸ hv)
    · rw [AList.lookup_insert_ne hother] at h
      exact .inl h

theorem Aside.trans {kwargs₁ kwargs₂ : Kwargs} (h₁ : Aside kwargs kwargs₁)
    (h₂ : Aside kwargs₁ kwargs₂) : Aside kwargs kwargs₂ := by
  constructor
  · intro directive attr h
    rw [h₂.1 directive attr h, h₁.1 directive attr h]
  · intro attr v h
    obtain hold | htype := h₂.2 attr v h
    · exact h₁.2 attr v hold
    · exact .inr htype

theorem not_field {attr : ConfigField} (h : ∀ p ∈ directives, p.2 ≠ .field attr)
    (directive : String) : directives.lookup directive ≠ some (.field attr) :=
  fun hlookup => h _ (mem_directives hlookup) rfl

theorem setValue_aside (attr : ConfigField) (htype : attr.type = .int)
    (hattr : ∀ p ∈ directives, p.2 ≠ .field attr) (kwargs : Kwargs) (s : String) :
    (intOfStr s = .error .valueError ∧ setValue kwargs attr (.str s) = .error .valueError) ∨
    (intOfStr s ≠ .error .valueError ∧
      ∃ kwargs', setValue kwargs attr (.str s) = .ok kwargs' ∧ Aside kwargs kwargs') := by
  rw [setValue_eq]
  have hvalue : valueFor attr (.str s) = (intOfStr s).map .int := by
    simp only [valueFor, htype]
    rfl
  rw [hvalue]
  cases intOfStr_cases s with
  | inl hraises =>
    rw [hraises]
    exact .inl ⟨rfl, rfl⟩
  | inr hreads =>
    obtain ⟨n, hn⟩ := hreads
    rw [hn]
    refine .inr ⟨fun heq => (nomatch heq), _, rfl, ?_⟩
    exact Aside.insert (not_field hattr) (by rw [htype]; trivial) kwargs

theorem keepalive_step (kwargs : Kwargs) (args : List String) :
    (Unreadable ("keepalive", args) ∧
      parseDirective kwargs "keepalive" args = .error .valueError) ∨
    (¬ Unreadable ("keepalive", args) ∧
      ∃ kwargs', parseDirective kwargs "keepalive" args = .ok kwargs' ∧ Aside kwargs kwargs') := by
  have hnumbers : numbers ("keepalive", args) = args.take 2 := by simp [numbers]
  have hinterval := setValue_aside .keepaliveInterval rfl (by decide)
  have htimeout := setValue_aside .keepaliveTimeout rfl (by decide)
  have hrefl : Aside kwargs kwargs := ⟨fun _ _ _ => rfl, fun _ _ h => .inl h⟩
  have hrun : parseDirective kwargs "keepalive" args =
      (List.zip [.keepaliveInterval, .keepaliveTimeout] args).foldlM
        (fun kwargs p => setValue kwargs p.1 (.str p.2)) kwargs := rfl
  rw [hrun, Unreadable, hnumbers]
  match args with
  | [] => exact .inr ⟨by simp, kwargs, rfl, hrefl⟩
  | [s] =>
    obtain ⟨hraises, hset⟩ | ⟨hreads, kwargs₁, hset, haside⟩ := hinterval kwargs s
    · exact .inl ⟨⟨s, by simp, hraises⟩, by simp [hset, bind, Except.bind]⟩
    · exact .inr ⟨by simpa using hreads, kwargs₁, by simp [hset], haside⟩
  | s :: t :: rest =>
    obtain ⟨hraises, hset⟩ | ⟨hreads, kwargs₁, hset, haside⟩ := hinterval kwargs s
    · exact .inl ⟨⟨s, by simp, hraises⟩, by simp [hset, bind, Except.bind]⟩
    · obtain ⟨hraises, hset'⟩ | ⟨hreads', kwargs₂, hset', haside'⟩ := htimeout kwargs₁ t
      · exact .inl ⟨⟨t, by simp, hraises⟩, by simp [hset, hset', bind, Except.bind]⟩
      · exact .inr ⟨by simpa using ⟨hreads, hreads'⟩, kwargs₂,
          by simp [hset, hset', bind, Except.bind, pure, Except.pure], haside.trans haside'⟩

/-- A directive that is not in the table goes to the extra options, with all its words. -/
theorem unknown_step (h : directives.lookup directive = none) (kwargs : Kwargs)
    (args : List String) :
    ¬ Unreadable (directive, args) ∧ ¬ Miscounted (directive, args) ∧
      ∃ kwargs', parseDirective kwargs directive args = .ok kwargs' ∧ Aside kwargs kwargs' := by
  have hne (known : String) (hknown : directives.lookup known ≠ none) : directive ≠ known := by
    rintro rfl
    exact hknown h
  have hport := hne "port" (by decide)
  have hverb := hne "verb" (by decide)
  have hreadable : ¬ Unreadable (directive, args) := by
    apply not_unreadable
    simp [numbers, hport, hverb, hne "keepalive" (by decide), hne "server" (by decide)]
  have hrun : parseDirective kwargs directive args = .ok (kwargs.insert .extraOptions
      (.dict ((extraOptions kwargs).insert directive args))) := by
    simp only [parseDirective, h]
  exact ⟨hreadable, not_miscounted hport hverb, _, hrun,
    Aside.insert (not_field (by decide)) (by trivial) kwargs⟩

end Lines

/-! What a whole file stores. -/

section Files
variable {lines done : List (String × List String)} {kwargs : Kwargs}

/-- After these lines each field that has a directive holds what its last line stores, and
the others hold values of their types. -/
structure Records (lines : List (String × List String)) (kwargs : Kwargs) : Prop where
  stored : ∀ directive attr, directives.lookup directive = some (.field attr) →
    (lastArgs directive lines).map (lineValue attr directive) =
      (kwargs.lookup attr).map Except.ok
  typed : ∀ attr, (∀ directive, directives.lookup directive ≠ some (.field attr)) →
    ∀ v, kwargs.lookup attr = some v → v.HasType attr.type

theorem Records.start : Records [] ∅ where
  stored := fun _ _ _ => rfl
  typed := fun _ _ _ h => nomatch h

theorem lastArgs_concat (directive : String) (lines : List (String × List String))
    (line : String × List String) :
    lastArgs directive (lines ++ [line]) =
      if directive = line.1 then some line.2 else lastArgs directive lines := by
  rw [lastArgs, List.reverse_append, List.reverse_singleton, List.singleton_append,
    List.lookup_cons]
  by_cases h : directive = line.1
  · simp [h]
  · rw [if_neg h, beq_false_of_ne h]
    rfl

theorem Records.aside {kwargs' : Kwargs} {line : String × List String} (h : Records lines kwargs)
    (haside : Aside kwargs kwargs')
    (hline : ∀ attr, directives.lookup line.1 ≠ some (.field attr)) :
    Records (lines ++ [line]) kwargs' where
  stored := by
    intro directive attr hlookup
    have hne : directive ≠ line.1 := fun heq => hline attr (heq ▸ hlookup)
    rw [lastArgs_concat, if_neg hne, haside.1 directive attr hlookup]
    exact h.stored directive attr hlookup
  typed := by
    intro attr hattr v hv
    obtain hold | htype := haside.2 attr v hv
    · exact h.typed attr hattr v hold
    · exact htype

theorem Records.field {line : String × List String} {attr : ConfigField} {v : Value}
    (h : Records lines kwargs) (hline : directives.lookup line.1 = some (.field attr))
    (hv : lineValue attr line.1 line.2 = .ok v) :
    Records (lines ++ [line]) (kwargs.insert attr v) where
  stored := by
    intro directive other hlookup
    rw [lastArgs_concat]
    by_cases hsame : directive = line.1
    · subst hsame
      have hattr : other = attr := by
        rw [hline] at hlookup
        exact (Target.field.inj (Option.some.inj hlookup)).symm
      subst hattr
      rw [if_pos rfl, AList.lookup_insert, Option.map_some, Option.map_some, hv]
    · have hother : other ≠ attr := fun heq => hsame (directive_unique hlookup (heq ▸ hline))
      rw [if_neg hsame, AList.lookup_insert_ne hother]
      exact h.stored directive other hlookup
  typed := by
    intro other hother w hw
    have hne : other ≠ attr := fun heq => hother line.1 (heq ▸ hline)
    rw [AList.lookup_insert_ne hne] at hw
    exact h.typed other hother w hw

/-- A line raises `ValueError` for a number that is none and `TypeError` for a number that is
missing or more than one; any other line stores its value. -/
theorem parseDirective_step (h : Records lines kwargs) (line : String × List String) :
    (Unreadable line ∧ parseDirective kwargs line.1 line.2 = .error .valueError) ∨
    (¬ Unreadable line ∧ Miscounted line ∧
      parseDirective kwargs line.1 line.2 = .error .typeError) ∨
    (¬ Unreadable line ∧ ¬ Miscounted line ∧
      ∃ kwargs', parseDirective kwargs line.1 line.2 = .ok kwargs' ∧
        Records (lines ++ [line]) kwargs') := by
  obtain ⟨directive, args⟩ := line
  cases htarget : directives.lookup directive with
  | none =>
    obtain ⟨hreadable, hcounted, kwargs', hrun, haside⟩ := unknown_step htarget kwargs args
    refine .inr (.inr ⟨hreadable, hcounted, kwargs', hrun, ?_⟩)
    exact h.aside haside fun attr => by simp [htarget]
  | some target =>
    cases target with
    | pair first second =>
      obtain ⟨rfl, rfl, rfl⟩ := pair_directive htarget
      obtain ⟨hunreadable, hrun⟩ | ⟨hreadable, kwargs', hrun, haside⟩ := keepalive_step kwargs args
      · exact .inl ⟨hunreadable, hrun⟩
      · refine .inr (.inr ⟨hreadable, not_miscounted (by decide) (by decide), kwargs', hrun, ?_⟩)
        exact h.aside haside fun attr => by simp [htarget]
    | field attr =>
      have hrun := parseDirective_field htarget kwargs args
      have hstores := lineValue_stores htarget args
      cases hvalue : lineValue attr directive args with
      | error e =>
        rw [hvalue] at hrun hstores
        cases hstores with
        | unreadable hunreadable => exact .inl ⟨hunreadable, hrun⟩
        | miscounted hreadable hmiscounted => exact .inr (.inl ⟨hreadable, hmiscounted, hrun⟩)
      | ok v =>
        rw [hvalue] at hrun hstores
        cases hstores with
        | value v hreadable hcounted htype =>
          exact .inr (.inr ⟨hreadable, hcounted, _, hrun, h.field htarget hvalue⟩)

/-- The first line that raises decides, if there is one. -/
inductive ReadsLines (done : List (String × List String)) :
    List (String × List String) → Except PyError Kwargs → Prop
  | raises (before : List (String × List String)) (line : String × List String)
      (after : List (String × List String)) (e : PyError)
      (hbefore : ∀ l ∈ before, ¬ Unreadable l)
      (hline : Unreadable line ∧ e = .valueError ∨
        ¬ Unreadable line ∧ Miscounted line ∧ e = .typeError)
      (hcounted : ∀ l ∈ before, ¬ Miscounted l) :
      ReadsLines done (before ++ line :: after) (.error e)
  | stores (lines : List (String × List String)) (kwargs : Kwargs)
      (hreadable : ∀ l ∈ lines, ¬ Unreadable l) (hcounted : ∀ l ∈ lines, ¬ Miscounted l)
      (hrecords : Records (done ++ lines) kwargs) : ReadsLines done lines (.ok kwargs)

theorem parseDirectives_run (h : Records done kwargs) (lines : List (String × List String)) :
    ReadsLines done lines (parseDirectives lines kwargs) := by
  induction lines generalizing done kwargs with
  | nil =>
    refine .stores [] kwargs (fun l hl => absurd hl List.not_mem_nil)
      (fun l hl => absurd hl List.not_mem_nil) ?_
    rwa [List.append_nil]
  | cons line lines ih =>
    rw [parseDirectives, List.foldlM_cons]
    have hnil (p : String × List String → Prop) : ∀ l ∈ ([] : List (String × List String)), p l :=
      fun l hl => absurd hl List.not_mem_nil
    obtain ⟨hunreadable, hrun⟩ | ⟨hreadable, hmiscounted, hrun⟩ |
      ⟨hreadable, hcounted, kwargs', hrun, hrecords⟩ := parseDirective_step h line
    · rw [hrun]
      exact .raises [] line lines _ (hnil _) (.inl ⟨hunreadable, rfl⟩) (hnil _)
    · rw [hrun]
      exact .raises [] line lines _ (hnil _) (.inr ⟨hreadable, hmiscounted, rfl⟩) (hnil _)
    · rw [hrun]
      change ReadsLines done (line :: lines) (parseDirectives lines kwargs')
      have hrest := ih hrecords
      generalize parseDirectives lines kwargs' = result at hrest
      cases hrest with
      | raises before line' after e hbefore hline hbeforeCounted =>
        exact .raises (line :: before) line' after e
          (List.forall_mem_cons.mpr ⟨hreadable, hbefore⟩) hline
          (List.forall_mem_cons.mpr ⟨hcounted, hbeforeCounted⟩)
      | stores _ kwargs'' hall hallCounted hrecords' =>
        refine .stores _ _ (List.forall_mem_cons.mpr ⟨hreadable, hall⟩)
          (List.forall_mem_cons.mpr ⟨hcounted, hallCounted⟩) ?_
        rwa [List.append_assoc, List.singleton_append] at hrecords'

theorem readOptions_records {text : String} (h : readOptions text = .ok kwargs) :
    Records (directiveLines text) kwargs ∧ ∀ l ∈ directiveLines text, ¬ Miscounted l := by
  have hrun := parseDirectives_run Records.start (directiveLines text)
  rw [← readOptions_eq, h] at hrun
  generalize directiveLines text = lines at hrun
  cases hrun with
  | stores _ _ hreadable hcounted hrecords =>
    rw [List.nil_append] at hrecords
    exact ⟨hrecords, hcounted⟩

theorem lastArgs_mem {directive : String} {args : List String}
    (h : lastArgs directive lines = some args) : (directive, args) ∈ lines := by
  obtain ⟨before, after, hlines, -⟩ := List.lookup_eq_some_iff.mp h
  have hmem : (directive, args) ∈ lines.reverse := by
    rw [hlines]
    exact List.mem_append_right _ List.mem_cons_self
  exact List.mem_reverse.mp hmem

theorem Records.field_cases (h : Records lines kwargs) {directive : String} {attr : ConfigField}
    (hlookup : directives.lookup directive = some (.field attr)) :
    (lastArgs directive lines = none ∧
      initFields kwargs attr = ({} : Config).attrs attr) ∨
    ∃ args v, lastArgs directive lines = some args ∧ lineValue attr directive args = .ok v ∧
      initFields kwargs attr = v := by
  have hstored := h.stored directive attr hlookup
  unfold initFields
  cases hlast : lastArgs directive lines with
  | none =>
    cases hvalue : kwargs.lookup attr with
    | none => exact .inl ⟨rfl, rfl⟩
    | some v =>
      rw [hlast, hvalue] at hstored
      cases hstored
  | some args =>
    cases hvalue : kwargs.lookup attr with
    | none =>
      rw [hlast, hvalue] at hstored
      cases hstored
    | some v =>
      rw [hlast, hvalue] at hstored
      exact .inr ⟨args, v, rfl, Option.some.inj hstored, rfl⟩

theorem Records.number_cases (h : Records lines kwargs) (hcounted : ∀ l ∈ lines, ¬ Miscounted l)
    {directive : String} {attr : ConfigField} (hdirective : directive = "port" ∨ directive = "verb")
    (hlookup : directives.lookup directive = some (.field attr)) :
    (lastArgs directive lines = none ∧ initFields kwargs attr = ({} : Config).attrs attr) ∨
    ∃ s n, lastArgs directive lines = some [s] ∧ intOfStr s = .ok n ∧
      initFields kwargs attr = .int n := by
  obtain hdefault | ⟨args, v, hlast, hvalue, hfield⟩ := h.field_cases hlookup
  · exact .inl hdefault
  · have hone : args.length = 1 := by
      by_contra hne
      exact hcounted _ (lastArgs_mem hlast) ⟨hdirective, hne⟩
    obtain ⟨s, rfl⟩ := List.length_eq_one_iff.mp hone
    have hline : lineValue attr directive [s] = (intOfStr s).map .int := by
      obtain rfl | rfl := hdirective <;>
        · cases Target.field.inj (Option.some.inj hlookup)
          rfl
    rw [hline] at hvalue
    cases hn : intOfStr s with
    | error e =>
      rw [hn] at hvalue
      cases hvalue
    | ok n =>
      rw [hn] at hvalue
      exact .inr ⟨s, n, hlast, hn, hfield.trans (Except.ok.inj hvalue).symm⟩

theorem Records.number_int (h : Records lines kwargs) (hcounted : ∀ l ∈ lines, ¬ Miscounted l)
    {directive : String} {attr : ConfigField} (hdirective : directive = "port" ∨ directive = "verb")
    (hlookup : directives.lookup directive = some (.field attr)) {start : Int}
    (hdefault : ({} : Config).attrs attr = .int start) : ∃ n, initFields kwargs attr = .int n := by
  obtain ⟨-, hfield⟩ | ⟨s, n, -, -, hn⟩ := h.number_cases hcounted hdirective hlookup
  · exact ⟨start, hfield.trans hdefault⟩
  · exact ⟨n, hn⟩

/-- The last `port`, `proto` and `verb` lines give values that `__post_init__` takes. -/
structure LinesInRange (lines : List (String × List String)) : Prop where
  proto : ∀ args, lastArgs "proto" lines = some args → args = ["udp"] ∨ args = ["tcp"]
  port : ∀ s n, lastArgs "port" lines = some [s] → intOfStr s = .ok n → 1 ≤ n ∧ n ≤ 65535
  verb : ∀ s n, lastArgs "verb" lines = some [s] → intOfStr s = .ok n → 0 ≤ n ∧ n ≤ 4

theorem wordsValue_isProto (args : List String) :
    (wordsValue args).isProto = true ↔ args = ["udp"] ∨ args = ["tcp"] := by
  unfold wordsValue
  split
  · simp [Value.isProto]
  · rename_i hwords
    refine iff_of_false (fun h => nomatch h) fun hone => ?_
    obtain rfl | rfl := hone
    · exact hwords _ rfl
    · exact hwords _ rfl

theorem Records.proto_iff (h : Records lines kwargs) :
    (initFields kwargs .proto).isProto = true ↔
      ∀ args, lastArgs "proto" lines = some args → args = ["udp"] ∨ args = ["tcp"] := by
  have hproto : directives.lookup "proto" = some (.field .proto) := rfl
  obtain ⟨hlast, hfield⟩ | ⟨args, v, hlast, hvalue, hfield⟩ := h.field_cases hproto
  · rw [hfield, hlast]
    exact iff_of_true rfl fun args heq => nomatch heq
  · have hwords : v = wordsValue args := (Except.ok.inj hvalue).symm
    rw [hfield, hwords, wordsValue_isProto, hlast]
    constructor
    · intro hproto args' heq
      exact Option.some.inj heq ▸ hproto
    · intro hall
      exact hall args rfl

theorem Records.number_within (h : Records lines kwargs) (hcounted : ∀ l ∈ lines, ¬ Miscounted l)
    {directive : String} {attr : ConfigField} (hdirective : directive = "port" ∨ directive = "verb")
    (hlookup : directives.lookup directive = some (.field attr)) {low high start : Int}
    (hdefault : ({} : Config).attrs attr = .int start) (hstart : low ≤ start ∧ start ≤ high) :
    ∃ n, initFields kwargs attr = .int n ∧ (low ≤ n ∧ n ≤ high ↔
      ∀ s n, lastArgs directive lines = some [s] → intOfStr s = .ok n → low ≤ n ∧ n ≤ high) := by
  obtain ⟨hlast, hfield⟩ | ⟨s, n, hlast, hn, hfield⟩ := h.number_cases hcounted hdirective hlookup
  · refine ⟨start, hfield.trans hdefault, iff_of_true hstart ?_⟩
    intro s n hsome
    rw [hlast] at hsome
    cases hsome
  · refine ⟨n, hfield, ?_⟩
    constructor
    · intro hrange s' n' hlast' hn'
      rw [hlast] at hlast'
      cases hlast'
      rw [hn] at hn'
      cases hn'
      exact hrange
    · intro hall
      exact hall s n hlast hn

theorem Config.postInit_run {self : Attrs} {port verb : Int} (hport : self .port = .int port)
    (hverb : self .verb = .int verb) :
    Config.postInit self =
      if (self .proto).isProto = true ∧ (1 ≤ port ∧ port ≤ 65535) ∧ (0 ≤ verb ∧ verb ≤ 4) then
        .ok ()
      else .error .valueError := by
  unfold Config.postInit
  rw [hport, hverb]
  simp only [Value.within]
  by_cases hp : (self .proto).isProto = true
  · by_cases hq : 1 ≤ port ∧ port ≤ 65535
    · by_cases hv : 0 ≤ verb ∧ verb ≤ 4
      · simp [hp, hq, hv, bind, Except.bind, pure, Except.pure]
      · simp [hp, hq, hv, bind, Except.bind]
    · simp [hp, hq, bind, Except.bind]
  · simp [hp]

theorem Records.init_run (h : Records lines kwargs) (hcounted : ∀ l ∈ lines, ¬ Miscounted l) :
    (LinesInRange lines ∧ Config.init kwargs = .ok (initFields kwargs)) ∨
      (¬ LinesInRange lines ∧ Config.init kwargs = .error .valueError) := by
  have hproto := h.proto_iff
  have hportField : directives.lookup "port" = some (.field .port) := rfl
  have hverbField : directives.lookup "verb" = some (.field .verb) := rfl
  obtain ⟨port, hport, hportRange⟩ := h.number_within hcounted (.inl rfl) hportField rfl
    (by decide : (1 : Int) ≤ 1194 ∧ (1194 : Int) ≤ 65535)
  obtain ⟨verb, hverb, hverbRange⟩ := h.number_within hcounted (.inr rfl) hverbField rfl
    (by decide : (0 : Int) ≤ 1 ∧ (1 : Int) ≤ 4)
  have hrange : LinesInRange lines ↔ (initFields kwargs .proto).isProto = true ∧
      (1 ≤ port ∧ port ≤ 65535) ∧ (0 ≤ verb ∧ verb ≤ 4) := by
    rw [hproto, hportRange, hverbRange]
    exact ⟨fun h => ⟨h.proto, h.port, h.verb⟩, fun h => ⟨h.1, h.2.1, h.2.2⟩⟩
  unfold Config.init
  rw [hrange, Config.postInit_run hport hverb]
  split
  · exact .inl ⟨‹_›, rfl⟩
  · exact .inr ⟨‹_›, rfl⟩

theorem acceptedCount_other {directive : String}
    (h : ∀ attr, directives.lookup directive ≠ some (.field attr)) (n : Nat) :
    AcceptedCount directive n := by
  have hne (known : String) {attr : ConfigField}
      (hknown : directives.lookup known = some (.field attr)) : directive ≠ known := by
    rintro rfl
    exact h attr hknown
  have hword : directive ∉ ["dev", "proto", "port", "remote", "ifconfig", "ca", "cert", "key",
      "cipher", "verb", "status", "user"] := by
    simp only [List.mem_cons, List.not_mem_nil, or_false, not_or]
    exact ⟨hne "dev" rfl, hne "proto" rfl, hne "port" rfl, hne "remote" rfl, hne "ifconfig" rfl,
      hne "ca" rfl, hne "cert" rfl, hne "key" rfl, hne "cipher" rfl, hne "verb" rfl,
      hne "status" rfl, hne "user" rfl⟩
  rw [AcceptedCount, if_neg (hne "server" rfl), if_neg (hne "ifconfig-pool" rfl), if_neg hword]
  trivial

/-- The fields are of their types if each directive had on its last line as many words as its
field takes. -/
theorem Records.wellTyped_iff (h : Records lines kwargs) :
    WellTyped (initFields kwargs) ↔
      ∀ directive args, lastArgs directive lines = some args →
        AcceptedCount directive args.length := by
  constructor
  · intro htyped directive args hlast
    by_cases hfield : ∃ attr, directives.lookup directive = some (.field attr)
    · obtain ⟨attr, hlookup⟩ := hfield
      obtain ⟨hnone, -⟩ | ⟨args', v, hlast', hvalue, hstored⟩ := h.field_cases hlookup
      · rw [hlast] at hnone
        cases hnone
      · rw [hlast] at hlast'
        cases hlast'
        have hstores := lineValue_stores hlookup args
        rw [hvalue] at hstores
        cases hstores with
        | value v hreadable hcounted htype => exact htype.mp (hstored ▸ htyped attr)
    · exact acceptedCount_other (fun attr hlookup => hfield ⟨attr, hlookup⟩) args.length
  · intro haccepted attr
    by_cases hfield : ∃ directive, directives.lookup directive = some (.field attr)
    · obtain ⟨directive, hlookup⟩ := hfield
      obtain ⟨-, hdefault⟩ | ⟨args, v, hlast, hvalue, hstored⟩ := h.field_cases hlookup
      · rw [hdefault]
        exact default_wellTyped attr
      · have hstores := lineValue_stores hlookup args
        rw [hvalue] at hstores
        cases hstores with
        | value v hreadable hcounted htype =>
          rw [hstored]
          exact htype.mpr (haccepted directive args hlast)
    · unfold initFields
      cases hvalue : kwargs.lookup attr with
      | none => exact default_wellTyped attr
      | some v =>
        exact h.typed attr (fun directive hlookup => hfield ⟨directive, hlookup⟩) v hvalue

end Files

def Config.InRange (config : Config) : Prop :=
  (config.proto = "udp" ∨ config.proto = "tcp") ∧ (1 ≤ config.port ∧ config.port ≤ 65535) ∧
    (0 ≤ config.verb ∧ config.verb ≤ 4)

theorem Config.postInit_attrs (config : Config) :
    Config.postInit config.attrs = .ok () ↔ config.InRange := by
  have hproto : (config.attrs .proto).isProto = true ↔
      config.proto = "udp" ∨ config.proto = "tcp" := by
    simp [Config.attrs, Value.isProto]
  rw [@Config.postInit_run config.attrs config.port config.verb rfl rfl, Config.InRange, ← hproto]
  split
  · exact iff_of_true rfl ‹_›
  · exact iff_of_false (fun h => nomatch h) ‹_›

/-- The defaults pass the checks. -/
theorem Config.default_inRange : ({} : Config).InRange := by
  simp [Config.InRange]

theorem init_typed_iff {kwargs : Kwargs} (h : Config.init kwargs = .ok (initFields kwargs)) :
    (∃ config : Config, config.InRange ∧ Config.init kwargs = .ok config.attrs) ↔
      WellTyped (initFields kwargs) := by
  rw [h, wellTyped_iff]
  constructor
  · intro hconfig
    obtain ⟨config, -, hok⟩ := hconfig
    exact ⟨config, Except.ok.inj hok⟩
  · intro hconfig
    obtain ⟨config, hattrs⟩ := hconfig
    obtain ⟨_, hpost, -⟩ := bind_eq_ok.mp h
    rw [hattrs] at hpost
    exact ⟨config, (Config.postInit_attrs config).mp hpost, by rw [hattrs]⟩

/-- Reading an option file raises `ValueError` or gives a configuration of the right types
that passes the checks. -/
def GivesConfig (result : Except PyError Attrs) : Prop :=
  result = .error .valueError ∨
    ∃ config : Config, config.InRange ∧ result = .ok config.attrs

/-- No number is missing or given twice before a line that raises `ValueError`; and if neither
a line nor `__post_init__` raises it, the last line of each directive has as many words as its
field takes. -/
structure SinglyGiven (lines : List (String × List String)) : Prop where
  counted : ∀ before line after, lines = before ++ line :: after → Miscounted line →
    ∃ l ∈ before, Unreadable l
  single : (∀ l ∈ lines, ¬ Unreadable l) → LinesInRange lines →
    ∀ directive args, lastArgs directive lines = some args → AcceptedCount directive args.length

theorem Unreadable.not_miscounted {line : String × List String} (h : Unreadable line) :
    ¬ Miscounted line := by
  intro hmiscounted
  obtain ⟨s, hs, -⟩ := h
  rw [numbers, if_pos hmiscounted.1, if_neg hmiscounted.2] at hs
  cases hs

theorem mem_before {α : Type} {before after front back : List α} {line other : α}
    (h : before ++ line :: after = front ++ other :: back) (hne : other ≠ line)
    (hbefore : other ∉ before) : line ∈ front := by
  obtain ⟨between, hfront, hrest⟩ | ⟨between, hfront, hrest⟩ := List.append_eq_append_iff.mp h
  · cases between with
    | nil => exact absurd (List.cons.inj hrest).1.symm hne
    | cons first between =>
      rw [hfront, (List.cons.inj hrest).1]
      exact List.mem_append_right _ List.mem_cons_self
  · cases between with
    | nil => exact absurd (List.cons.inj hrest).1 hne
    | cons first between =>
      refine absurd ?_ hbefore
      rw [hfront, (List.cons.inj hrest).1]
      exact List.mem_append_right _ List.mem_cons_self

/-- An option file gives a typed configuration or `ValueError` exactly when its directives are
given with as many words as they take, as far as the reading of the file gets. -/
theorem config_typed_iff (text : String) :
    GivesConfig (parseConfig text) ↔ SinglyGiven (directiveLines text) := by
  unfold parseConfig
  rw [readOptions_eq]
  have hrun := parseDirectives_run Records.start (directiveLines text)
  generalize directiveLines text = lines at hrun ⊢
  generalize parseDirectives lines ∅ = result at hrun
  cases hrun with
  | raises before line after e hbefore hline hcounted =>
    obtain ⟨hunreadable, rfl⟩ | ⟨hreadable, hmiscounted, rfl⟩ := hline
    · refine iff_of_true (.inl rfl) ⟨?_, ?_⟩
      · intro front line' back hsplit hmiscounted
        refine ⟨line, mem_before hsplit ?_ fun hmem => hcounted line' hmem hmiscounted, hunreadable⟩
        exact fun heq => hunreadable.not_miscounted (heq ▸ hmiscounted)
      · intro hreadable
        exact absurd hunreadable (hreadable line (List.mem_append_right _ List.mem_cons_self))
    · refine iff_of_false ?_ ?_
      · intro hgives
        obtain herror | ⟨config, -, hok⟩ := hgives
        · cases herror
        · cases hok
      · intro hsingly
        obtain ⟨l, hl, hunreadable⟩ := hsingly.counted before line after rfl hmiscounted
        exact hbefore l hl hunreadable
  | stores _ kwargs hreadable hcounted hrecords =>
    rw [List.nil_append] at hrecords
    change GivesConfig (Config.init kwargs) ↔ _
    have hno : ∀ before line after, lines = before ++ line :: after → Miscounted line →
        ∃ l ∈ before, Unreadable l := by
      intro before line after hsplit hmiscounted
      exact absurd hmiscounted (hcounted line (by rw [hsplit]; simp))
    obtain ⟨hrange, hinit⟩ | ⟨hrange, hinit⟩ := hrecords.init_run hcounted
    · have hgives : GivesConfig (Config.init kwargs) ↔ WellTyped (initFields kwargs) := by
        rw [← init_typed_iff hinit]
        exact or_iff_right (by rw [hinit]; exact fun heq => nomatch heq)
      rw [hgives, hrecords.wellTyped_iff]
      exact ⟨fun haccepted => ⟨hno, fun _ _ => haccepted⟩,
        fun hsingly => hsingly.single hreadable hrange⟩
    · rw [hinit]
      exact iff_of_true (.inl rfl) ⟨hno, fun _ hin => absurd hin hrange⟩

/-- Host and port on one `remote` line leave a list in the field, and a `port` line without a
number raises `TypeError`. -/
theorem remote_port_listed :
    (∃ attrs, parseConfig "remote vpn.example 1194" = .ok attrs ∧
      attrs .remote = .list ["vpn.example", "1194"]) ∧
    ¬ GivesConfig (parseConfig "remote vpn.example 1194") ∧
    parseConfig "port" = .error .typeError ∧ ¬ GivesConfig (parseConfig "port") := by
  have hlist : ∃ attrs, parseConfig "remote vpn.example 1194" = .ok attrs ∧
      attrs .remote = .list ["vpn.example", "1194"] := ⟨_, rfl, rfl⟩
  have hraise : parseConfig "port" = .error .typeError := rfl
  refine ⟨hlist, ?_, hraise, ?_⟩
  · obtain ⟨attrs, hok, hremote⟩ := hlist
    rw [hok]
    intro hgives
    obtain herror | ⟨config, -, hconfig⟩ := hgives
    · cases herror
    · rw [Except.ok.inj hconfig, Config.attrs] at hremote
      cases hvalue : config.remote with
      | none =>
        rw [hvalue] at hremote
        cases hremote
      | some s =>
        rw [hvalue] at hremote
        cases hremote
  · rw [hraise]
    intro hgives
    obtain herror | ⟨config, -, hconfig⟩ := hgives
    · cases herror
    · cases hconfig

end PyVpn
