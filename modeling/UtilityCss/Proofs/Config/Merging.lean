import UtilityCss.Proofs.Config.Members
/-!
# Configurations over the defaults

The configuration that an object describes is the default one, changed where the object says
something. It does not depend on the order of the members, nor on which of its two spellings a
setting has, and members with other keys have no effect. A setting that is set in both spellings is
rejected, unless a value that is read before it is fatal. Every setting is the value that was given
or the default; every prefix has the rule that was given, none where null was given, and else the
default rule; and every name has the value that was given or the default.
-/

namespace UtilityCss.Config

open Verdict

variable {α : Type} {members members' : List (Text × Json)} {base c c' : Config} {root : Path}

/-! ## Keys -/

/-- The settings that have two spellings. -/
def spelledSettings : List Setting := settings ++ [valueMapSetting]

/-- A key under which a setting may stand. -/
def Setting.IsSpelling (s : Setting) (key : Text) : Prop := key = s.name ∨ key = s.camelName

instance (s : Setting) (key : Text) : Decidable (s.IsSpelling key) := by
  unfold Setting.IsSpelling
  infer_instance

/-- The keys that are looked for. -/
def IsKnown (key : Text) : Prop := key = "rules" ∨ ∃ s ∈ spelledSettings, s.IsSpelling key

instance (key : Text) : Decidable (IsKnown key) := by
  unfold IsKnown
  infer_instance

/-- Two spellings of a setting, or twice the same key. -/
def SameMeaning (key key' : Text) : Prop :=
  key = key' ∨ ∃ s ∈ spelledSettings, s.IsSpelling key ∧ s.IsSpelling key'

/-- The second members are the first ones, with settings spelled in the same or the other way. -/
def Respelled (members members' : List (Text × Json)) : Prop :=
  List.Forall₂ (fun m m' => SameMeaning m.1 m'.1 ∧ m.2 = m'.2) members members'

/-- Members under both spellings of a setting. -/
def Setting.IsSetTwice (s : Setting) (members : List (Text × Json)) : Prop :=
  s.name ≠ s.camelName ∧ s.name ∈ members.map Prod.fst ∧ s.camelName ∈ members.map Prod.fst

instance (s : Setting) (members : List (Text × Json)) : Decidable (s.IsSetTwice members) := by
  unfold Setting.IsSetTwice
  infer_instance

/-- What is read from the members. -/
inductive Part where
  | setting (s : Setting)
  | rules

/-- The parts in the order in which they are read. -/
def parts : List Part := settings.map .setting ++ [.rules, .setting valueMapSetting]

/-- The verdict on the members as far as a part is concerned. -/
def Part.verdict (members : List (Text × Json)) : Part → Verdict
  | setting s => s.verdict members
  | rules => rulesVerdict members

/-! ## What a configuration has from an object -/

/-- The value of a setting with these spellings: what is read from the member that sets it, or the
default. -/
def Sets (members : List (Text × Json)) (name camelName : Text)
    (read : Text → Json → Except LoadError α) (default value : α) : Prop :=
  match given name camelName members with
  | [] => value = default
  | [m] => read m.1 m.2 = .ok value
  | _ => False

/-- The rule of a prefix: the default one, none where null is given, or the rule that is given. -/
def SetsRule (specs : List (Text × Json)) (p : Text) (default rule? : Option Rule) : Prop :=
  match Json.get? p specs with
  | none => rule? = default
  | some .null => rule? = none
  | some (.obj spec) => ∃ r, Rule.Spec.toRule p spec = .ok r ∧ rule? = some r
  | some _ => False

/-- The rules: the default ones, or for every prefix what is given for it. -/
def SetsRules (members : List (Text × Json)) (default table : RuleTable) : Prop :=
  match Json.get? "rules" members with
  | none | some .null => table = default
  | some (.obj specs) => ∀ p, SetsRule specs p (default.get? p) (table.get? p)
  | some _ => False

/-- The names for values: the default ones, or for every name the display form of what is given for
it. -/
def SetsValues (members : List (Text × Json)) (default values : ValueMap) : Prop :=
  match given "value_map" "valueMap" members with
  | [] => values = default
  | [(_, .obj names)] =>
    ∀ name, values.get? name = ((Json.get? name names).map Json.text).or (default.get? name)
  | _ => False

/-- A configuration is another one, changed where some members say something. -/
structure Overrides (base : Config) (members : List (Text × Json)) (c : Config) : Prop where
  root : c.root = base.root
  unit : Sets members "unit" "unit" asString base.unit c.unit
  watchPatterns :
    Sets members "watch_patterns" "watchDirs" asStrings base.watchPatterns c.watchPatterns
  outputDir : Sets members "output_dir" "outputDir" asString base.outputDir c.outputDir
  outputFileName :
    Sets members "output_file_name" "outputFileName" asString base.outputFileName c.outputFileName
  batchBaseDelay :
    Sets members "batch_base_delay" "batchBaseDelay" asInt base.batchBaseDelay c.batchBaseDelay
  batchDelayPerFile :
    Sets members "batch_delay_per_file" "batchDelayPerFile" asInt base.batchDelayPerFile
      c.batchDelayPerFile
  maxBatchDelay :
    Sets members "max_batch_delay" "maxBatchDelay" asInt base.maxBatchDelay c.maxBatchDelay
  maxRetries : Sets members "max_retries" "maxRetries" asInt base.maxRetries c.maxRetries
  retryDelay : Sets members "retry_delay" "retryDelay" asInt base.retryDelay c.retryDelay
  retryBackoffFactor :
    Sets members "retry_backoff_factor" "retryBackoffFactor" asFloat base.retryBackoffFactor
      c.retryBackoffFactor
  minify : Sets members "minify" "minify" asBool base.minify c.minify
  existingCssFiles :
    Sets members "existing_css_files" "existingCssFiles" asStrings base.existingCssFiles
      c.existingCssFiles
  ignoreExistingClasses : Sets members "ignore_existing_classes" "ignoreExistingClasses" asBool
    base.ignoreExistingClasses c.ignoreExistingClasses
  banner : Sets members "banner" "banner" asString base.banner c.banner
  footer : Sets members "footer" "footer" asString base.footer c.footer
  splitNamespaces :
    Sets members "split_namespaces" "splitNamespaces" asTextMap base.splitNamespaces
      c.splitNamespaces
  scanWorkers : Sets members "scan_workers" "scanWorkers" asInt base.scanWorkers c.scanWorkers
  pollInterval :
    Sets members "poll_interval" "pollInterval" asFloat base.pollInterval c.pollInterval
  logFile : Sets members "log_file" "logFile" asOptionalString base.logFile c.logFile
  rules : SetsRules members base.rules c.rules
  valueMap : SetsValues members base.valueMap c.valueMap

/-! ## Settings -/

/-- A field puts what was given for it into the configuration, and the reading goes on from
there. -/
theorem of_make_bind {name camelName : Text} {read : Text → Json → Except LoadError α}
    {store : Config → α → Config} {rest : Config → Except LoadError Config} (get : Config → α)
    (hkeys : (members.map Prod.fst).Nodup)
    (hget : ∀ c, store c (get c) = c)
    (h : ((Field.make name camelName read store).update members base >>= rest) = .ok c) :
    ∃ a, Sets members name camelName read (get base) a ∧ rest (store base a) = .ok c := by
  obtain ⟨c', hupdate, hrest⟩ := bind_eq_ok.1 h
  rw [update_eq hkeys] at hupdate
  have hnames : given (Field.make name camelName read store).name
      (Field.make name camelName read store).camelName members = given name camelName members := rfl
  rw [hnames] at hupdate
  unfold Sets
  generalize given name camelName members = found at hupdate
  match found with
  | [] =>
    obtain rfl := Except.ok.inj hupdate
    exact ⟨get base, rfl, (hget base).symm ▸ hrest⟩
  | [m] =>
    obtain ⟨a, hread, ha⟩ := bind_eq_ok.1
      (show (read m.1 m.2 >>= fun a => .ok (store base a)) = .ok c' from hupdate)
    obtain rfl := Except.ok.inj ha
    exact ⟨a, hread, hrest⟩
  | _ :: _ :: _ => cases hupdate

/-- The fields put what was given into the configuration, each at its own place. -/
theorem fields_set (hkeys : (members.map Prod.fst).Nodup)
    (h : fields.foldlM (fun c f => f.update members c) base = .ok c) :
    c.rules = base.rules ∧ c.valueMap = base.valueMap ∧
      ∀ table values, SetsRules members base.rules table → SetsValues members base.valueMap values →
        Overrides base members { c with rules := table, valueMap := values } := by
  simp only [fields, List.foldlM_cons, List.foldlM_nil] at h
  -- One field after the other: each reads its value and leaves the places of the others alone.
  obtain ⟨unit, hunit, h⟩ := of_make_bind Config.unit hkeys (fun _ => rfl) h
  obtain ⟨watchPatterns, hwatchPatterns, h⟩ :=
    of_make_bind Config.watchPatterns hkeys (fun _ => rfl) h
  obtain ⟨outputDir, houtputDir, h⟩ := of_make_bind Config.outputDir hkeys (fun _ => rfl) h
  obtain ⟨outputFileName, houtputFileName, h⟩ :=
    of_make_bind Config.outputFileName hkeys (fun _ => rfl) h
  obtain ⟨batchBaseDelay, hbatchBaseDelay, h⟩ :=
    of_make_bind Config.batchBaseDelay hkeys (fun _ => rfl) h
  obtain ⟨batchDelayPerFile, hbatchDelayPerFile, h⟩ :=
    of_make_bind Config.batchDelayPerFile hkeys (fun _ => rfl) h
  obtain ⟨maxBatchDelay, hmaxBatchDelay, h⟩ :=
    of_make_bind Config.maxBatchDelay hkeys (fun _ => rfl) h
  obtain ⟨maxRetries, hmaxRetries, h⟩ := of_make_bind Config.maxRetries hkeys (fun _ => rfl) h
  obtain ⟨retryDelay, hretryDelay, h⟩ := of_make_bind Config.retryDelay hkeys (fun _ => rfl) h
  obtain ⟨retryBackoffFactor, hretryBackoffFactor, h⟩ :=
    of_make_bind Config.retryBackoffFactor hkeys (fun _ => rfl) h
  obtain ⟨minify, hminify, h⟩ := of_make_bind Config.minify hkeys (fun _ => rfl) h
  obtain ⟨existingCssFiles, hexistingCssFiles, h⟩ :=
    of_make_bind Config.existingCssFiles hkeys (fun _ => rfl) h
  obtain ⟨ignoreExistingClasses, hignoreExistingClasses, h⟩ :=
    of_make_bind Config.ignoreExistingClasses hkeys (fun _ => rfl) h
  obtain ⟨banner, hbanner, h⟩ := of_make_bind Config.banner hkeys (fun _ => rfl) h
  obtain ⟨footer, hfooter, h⟩ := of_make_bind Config.footer hkeys (fun _ => rfl) h
  obtain ⟨splitNamespaces, hsplitNamespaces, h⟩ :=
    of_make_bind Config.splitNamespaces hkeys (fun _ => rfl) h
  obtain ⟨scanWorkers, hscanWorkers, h⟩ := of_make_bind Config.scanWorkers hkeys (fun _ => rfl) h
  obtain ⟨pollInterval, hpollInterval, h⟩ := of_make_bind Config.pollInterval hkeys (fun _ => rfl) h
  obtain ⟨logFile, hlogFile, h⟩ := of_make_bind Config.logFile hkeys (fun _ => rfl) h
  obtain rfl := Except.ok.inj h
  refine ⟨rfl, rfl, ?_⟩
  intro table values htable hvalues
  exact {
    root := rfl
    unit := hunit
    watchPatterns := hwatchPatterns
    outputDir := houtputDir
    outputFileName := houtputFileName
    batchBaseDelay := hbatchBaseDelay
    batchDelayPerFile := hbatchDelayPerFile
    maxBatchDelay := hmaxBatchDelay
    maxRetries := hmaxRetries
    retryDelay := hretryDelay
    retryBackoffFactor := hretryBackoffFactor
    minify := hminify
    existingCssFiles := hexistingCssFiles
    ignoreExistingClasses := hignoreExistingClasses
    banner := hbanner
    footer := hfooter
    splitNamespaces := hsplitNamespaces
    scanWorkers := hscanWorkers
    pollInterval := hpollInterval
    logFile := hlogFile
    rules := htable
    valueMap := hvalues }

/-! ## Rules and names for values -/

theorem prefixName_of_toRule {p : Text} {spec : List (Text × Json)} {r : Rule}
    (h : Rule.Spec.toRule p spec = .ok r) : r.prefixName = p := by
  simp only [Rule.Spec.toRule, bind_eq_ok] at h
  obtain ⟨properties, -, valueMap, -, h⟩ := h
  cases h
  rfl

/-- What is read from the specifications of rules: null removes a prefix, an object gives it a rule,
and nothing else is taken. -/
structure ReadsRules (specs : List (Text × Json)) (rules : List Rule) (removed : List Text) :
    Prop where
  mem_removed : ∀ p, p ∈ removed ↔ (p, .null) ∈ specs
  mem_rules : ∀ p r, (p, r) ∈ rules.map (fun r => (r.prefixName, r)) ↔
    ∃ spec, (p, .obj spec) ∈ specs ∧ Rule.Spec.toRule p spec = .ok r
  prefixes : (rules.map Rule.prefixName).Sublist (specs.map Prod.fst)
  described :
    ∀ p v, (p, v) ∈ specs → v = .null ∨ ∃ spec r, v = .obj spec ∧ Rule.Spec.toRule p spec = .ok r

section ReadsRules

variable {specs : List (Text × Json)} {rules : List Rule} {removed : List Text} {p : Text}

theorem ReadsRules.nil : ReadsRules [] [] [] := ⟨by simp, by simp, .slnil, by simp⟩

/-- Null removes a prefix. -/
theorem ReadsRules.null (h : ReadsRules specs rules removed) :
    ReadsRules ((p, .null) :: specs) rules (p :: removed) where
  mem_removed q := by simp [h.mem_removed]
  mem_rules q r := by simp [h.mem_rules]
  prefixes := h.prefixes.cons _
  described q v hv := by
    rcases List.mem_cons.1 hv with heq | hv
    · exact .inl (Prod.mk.inj heq).2
    · exact h.described q v hv

/-- An object gives a prefix its rule. -/
theorem ReadsRules.rule {r : Rule} (h : ReadsRules specs rules removed)
    (hr : Rule.Spec.toRule p members = .ok r) :
    ReadsRules ((p, .obj members) :: specs) (r :: rules) removed where
  mem_removed q := by simp [h.mem_removed]
  mem_rules q r' := by
    rw [List.map_cons, List.mem_cons, h.mem_rules]
    constructor
    · rintro (heq | ⟨spec, hspec, hr'⟩)
      · obtain ⟨rfl, rfl⟩ := Prod.mk.inj heq
        rw [prefixName_of_toRule hr]
        exact ⟨members, List.mem_cons_self, hr⟩
      · exact ⟨spec, List.mem_cons_of_mem _ hspec, hr'⟩
    · rintro ⟨spec, hspec, hr'⟩
      rcases List.mem_cons.1 hspec with heq | hspec
      · obtain ⟨rfl, hobj⟩ := Prod.mk.inj heq
        obtain rfl := Json.obj.inj hobj
        obtain rfl := Except.ok.inj (hr.symm.trans hr')
        exact .inl (Prod.ext (prefixName_of_toRule hr).symm rfl)
      · exact .inr ⟨spec, hspec, hr'⟩
  prefixes := by
    rw [List.map_cons, List.map_cons, prefixName_of_toRule hr]
    exact h.prefixes.cons_cons _
  described q v hv := by
    rcases List.mem_cons.1 hv with heq | hv
    · obtain ⟨rfl, rfl⟩ := Prod.mk.inj heq
      exact .inr ⟨members, r, rfl, hr⟩
    · exact h.described q v hv

theorem readsRules (h : readRules specs = .ok (rules, removed)) :
    ReadsRules specs rules removed := by
  induction specs generalizing rules removed with
  | nil =>
    cases h
    exact .nil
  | cons spec specs ih =>
    obtain ⟨p, v⟩ := spec
    cases v with
    | null =>
      obtain ⟨⟨rules', removed'⟩, hrest, h⟩ :=
        bind_eq_ok.1 (show (readRules specs >>= _) = _ from h)
      cases h
      exact (ih hrest).null
    | obj members =>
      obtain ⟨r, hr, h⟩ := bind_eq_ok.1
        (show ((Rule.Spec.toRule p members).mapError LoadError.rule >>= _) = _ from h)
      obtain ⟨⟨rules', removed'⟩, hrest, h⟩ := bind_eq_ok.1 h
      cases h
      exact (ih hrest).rule (mapError_eq_ok.1 hr)
    | _ => cases h

/-- A table with the rules that were read has, for every prefix, what its specification says. -/
theorem ReadsRules.setsRule (h : ReadsRules specs rules removed)
    (hkeys : (specs.map Prod.fst).Nodup) (default : RuleTable) (p : Text) :
    SetsRule specs p (default.get? p)
      (((default.merge (.ofRules rules)).without removed).get? p) := by
  have hprefixes : ((rules.map fun r => (r.prefixName, r)).map Prod.fst).Nodup := by
    rw [List.map_map]
    exact hkeys.sublist h.prefixes
  have hget : ((default.merge (.ofRules rules)).without removed).get? p =
      (((OrderedMap.ofList (rules.map fun r => (r.prefixName, r))).get? p).or
        (default.get? p)).filter fun _ => !removed.contains p := by
    rw [RuleTable.get?, RuleTable.without, OrderedMap.get?_filter, RuleTable.merge,
      OrderedMap.get?_merge]
    rfl
  have hnew : ∀ r, (OrderedMap.ofList (rules.map fun r => (r.prefixName, r))).get? p = some r ↔
      ∃ spec, (p, .obj spec) ∈ specs ∧ Rule.Spec.toRule p spec = .ok r := by
    intro r
    rw [OrderedMap.get?_ofList hprefixes, h.mem_rules]
  have hremoved : p ∈ removed ↔ Json.get? p specs = some .null := by
    rw [h.mem_removed, Json.get?_eq_some_iff hkeys]
  rw [hget, SetsRule]
  cases hspec : Json.get? p specs with
  | none =>
    -- Nothing is said about the prefix: it has no new rule and is not removed.
    have hnone : (OrderedMap.ofList (rules.map fun r => (r.prefixName, r))).get? p = none := by
      refine Option.eq_none_iff_forall_ne_some.2 ?_
      intro r hr
      obtain ⟨spec, hmem, -⟩ := (hnew r).1 hr
      rw [(Json.get?_eq_some_iff hkeys).2 hmem] at hspec
      cases hspec
    have hkept : p ∉ removed := by
      rw [hremoved, hspec]
      simp
    rw [hnone, Option.none_or]
    cases default.get? p <;> simp [hkept]
  | some v =>
    have hmem := (Json.get?_eq_some_iff hkeys).1 hspec
    rcases h.described p v hmem with rfl | ⟨spec, r, rfl, hr⟩
    · have hgone : p ∈ removed := hremoved.2 hspec
      simp [hgone]
    · have hkept : p ∉ removed := by
        rw [hremoved, hspec]
        simp
      have hfound := (hnew r).2 ⟨spec, hmem, hr⟩
      refine ⟨r, hr, ?_⟩
      rw [hfound]
      simp [hkept]

end ReadsRules

theorem updateRules_sets (hdistinct : (Json.obj members).Distinct)
    (h : updateRules members base = .ok c) :
    ∃ table, SetsRules members base.rules table ∧ c = { base with rules := table } := by
  unfold SetsRules
  rw [updateRules] at h
  cases hrules : Json.get? "rules" members with
  | none =>
    rw [hrules] at h
    exact ⟨base.rules, rfl, (Except.ok.inj h).symm⟩
  | some v =>
    rw [hrules] at h
    cases v with
    | null => exact ⟨base.rules, rfl, (Except.ok.inj h).symm⟩
    | obj specs =>
      obtain ⟨⟨rules, removed⟩, hread, h⟩ := bind_eq_ok.1 (show (readRules specs >>= _) = _ from h)
      have hkeys := (hdistinct.value ((Json.get?_eq_some_iff hdistinct.keys).1 hrules)).keys
      exact ⟨_, (readsRules hread).setsRule hkeys base.rules, (Except.ok.inj h).symm⟩
    | _ => cases h

/-- The names that an object gives values are its keys, with the display forms of what stands
there. -/
theorem get?_textMap {names : List (Text × Json)} (hkeys : (names.map Prod.fst).Nodup)
    (name : Text) :
    (OrderedMap.ofList (names.map fun m => (m.1, m.2.text))).get? name =
      (Json.get? name names).map Json.text := by
  have hkeys' : ((names.map fun m => (m.1, m.2.text)).map Prod.fst).Nodup := by
    rw [List.map_map]
    exact hkeys
  refine Option.ext fun value => ?_
  rw [OrderedMap.get?_ofList hkeys', Option.map_eq_some_iff]
  simp only [Json.get?_eq_some_iff hkeys, List.mem_map, Prod.mk.injEq, Prod.exists]
  constructor
  · rintro ⟨_, v, hmem, rfl, rfl⟩
    exact ⟨v, hmem, rfl⟩
  · rintro ⟨v, hmem, rfl⟩
    exact ⟨name, v, hmem, rfl, rfl⟩

theorem valueMap_sets (hdistinct : (Json.obj members).Distinct)
    (h : valueMapField.update members base = .ok c) :
    ∃ values, SetsValues members base.valueMap values ∧ c = { base with valueMap := values } := by
  rw [update_eq hdistinct.keys] at h
  have hnames : given valueMapField.name valueMapField.camelName members =
      given "value_map" "valueMap" members := rfl
  have hmem : ∀ m ∈ given "value_map" "valueMap" members, m ∈ members :=
    fun m hm => (List.mem_filter.1 hm).1
  rw [hnames] at h
  unfold SetsValues
  generalize given "value_map" "valueMap" members = found at h hmem
  match found with
  | [] => exact ⟨base.valueMap, rfl, (Except.ok.inj h).symm⟩
  | [(key, v)] =>
    cases v with
    | obj names =>
      have hkeys := (hdistinct.value (hmem _ List.mem_cons_self)).keys
      refine ⟨base.valueMap.merge (.ofList (names.map fun m => (m.1, m.2.text))), ?_,
        (Except.ok.inj h).symm⟩
      intro name
      rw [OrderedMap.get?_merge, get?_textMap hkeys]
    | _ => cases h
  | _ :: _ :: _ => cases h

/-- A configuration that an object describes is the default one, changed where the object says
something. -/
theorem overrides_of_ofJson (hdistinct : (Json.obj members).Distinct)
    (h : ofJson root (.obj members) = .ok c) : Overrides { root } members c := by
  obtain ⟨c', hfields, h⟩ := bind_eq_ok.1 (show (fields.foldlM _ _ >>= _) = _ from h)
  obtain ⟨c'', hrules, hvalueMap⟩ := bind_eq_ok.1 h
  obtain ⟨table, htable, rfl⟩ := updateRules_sets hdistinct hrules
  obtain ⟨values, hvalues, rfl⟩ := valueMap_sets hdistinct hvalueMap
  obtain ⟨hsameRules, hsameValues, hset⟩ := fields_set hdistinct.keys hfields
  rw [hsameRules] at htable
  exact hset table values htable (hsameValues ▸ hvalues)

/-! ## Order and spelling -/

/-- The fields are spelled as the settings are. -/
theorem exists_setting {f : Field} (hf : f ∈ fields ++ [valueMapField]) :
    ∃ s ∈ spelledSettings, s.name = f.name ∧ s.camelName = f.camelName := by
  have hsame : (fields ++ [valueMapField]).map (fun f => (f.name, f.camelName)) =
      spelledSettings.map fun s => (s.name, s.camelName) := rfl
  have hnames : (f.name, f.camelName) ∈ spelledSettings.map fun s => (s.name, s.camelName) :=
    hsame ▸ List.mem_map_of_mem hf
  obtain ⟨s, hs, heq⟩ := List.mem_map.1 hnames
  exact ⟨s, hs, (Prod.mk.inj heq).1, (Prod.mk.inj heq).2⟩

/-- What relates the results of reading each part relates the results of reading everything. -/
theorem ofJson_related {R : Except LoadError Config → Except LoadError Config → Prop}
    (hok : ∀ c, R (.ok c) (.ok c))
    (hbind : ∀ x y (f g : Config → Except LoadError Config), R x y → (∀ c, R (f c) (g c)) →
      R (x >>= f) (y >>= g))
    (hfields : ∀ f ∈ fields ++ [valueMapField], ∀ c, R (f.update members' c) (f.update members c))
    (hrules : ∀ c, R (updateRules members' c) (updateRules members c)) :
    R (ofJson root (.obj members')) (ofJson root (.obj members)) := by
  have hfold : ∀ fs ⊆ fields, ∀ c, R (fs.foldlM (fun c f => f.update members' c) c)
      (fs.foldlM (fun c f => f.update members c) c) := by
    intro fs
    induction fs with
    | nil => exact fun _ c => hok c
    | cons f fs ih =>
      intro hfs c
      obtain ⟨hf, hrest⟩ := List.cons_subset.1 hfs
      rw [List.foldlM_cons, List.foldlM_cons]
      exact hbind _ _ _ _ (hfields f (List.mem_append_left _ hf) c) (ih hrest)
  apply hbind _ _ _ _ (hfold fields (List.Subset.refl _) _)
  intro c
  apply hbind _ _ _ _ (hrules c)
  exact hfields valueMapField (List.mem_append_right _ List.mem_cons_self)

/-- Objects that agree in the keys that are looked for describe the same configuration. -/
theorem ofJson_congr (h : ∀ key, IsKnown key → Json.get? key members' = Json.get? key members) :
    ofJson root (.obj members') = ofJson root (.obj members) := by
  apply ofJson_related (R := Eq)
  · exact fun _ => rfl
  · intro x y f g hxy hfg
    rw [hxy, funext hfg]
  · intro f hf c
    obtain ⟨s, hs, hname, hcamelName⟩ := exists_setting hf
    rw [Field.update, Field.update, Field.find?, Field.find?,
      h f.name (.inr ⟨s, hs, .inl hname.symm⟩), h f.camelName (.inr ⟨s, hs, .inr hcamelName.symm⟩)]
  · intro c
    rw [updateRules, updateRules, h "rules" (.inl rfl)]

theorem ofJson_of_perm (hkeys : (members.map Prod.fst).Nodup) (hperm : members'.Perm members) :
    ofJson root (.obj members') = ofJson root (.obj members) :=
  ofJson_congr fun _ _ => Json.get?_eq_of_perm hkeys hperm

theorem ofJson_filter_isKnown (root : Path) (members : List (Text × Json)) :
    ofJson root (.obj (members.filter fun m => IsKnown m.1)) = ofJson root (.obj members) :=
  ofJson_congr fun _ hknown => Json.get?_filter (p := fun key => IsKnown key)
    (decide_eq_true hknown) members

/-- A way to read values takes the same values, whatever the key is that they stand under. -/
def KeyFree (read : Text → Json → Except LoadError α) : Prop :=
  ∀ key key' v, SameAnswer (read key v) (read key' v)

theorem asString_keyFree : KeyFree asString := by
  intro key key' v a
  cases v <;> simp [asString]

theorem asInt_keyFree : KeyFree asInt := by
  intro key key' v a
  cases v <;> simp [asInt]

theorem asFloat_keyFree : KeyFree asFloat := by
  intro key key' v a
  cases v <;> simp [asFloat]

theorem asBool_keyFree : KeyFree asBool := by
  intro key key' v a
  cases v <;> simp [asBool]

theorem asStrings_keyFree : KeyFree asStrings := by
  intro key key' v a
  cases v with
  | arr items =>
    unfold asStrings
    dsimp only
    split <;> simp
  | _ => simp [asStrings]

theorem asTextMap_keyFree : KeyFree asTextMap := by
  intro key key' v a
  cases v <;> simp [asTextMap]

theorem asOptionalString_keyFree : KeyFree asOptionalString := by
  intro key key' v a
  cases v <;> simp [asOptionalString, asString, Except.map]

/-- A field does the same with a value under either key. -/
def SpellingFree (f : Field) : Prop :=
  ∀ key key' v c, SameAnswer (f.apply key v c) (f.apply key' v c)

theorem make_spellingFree {read : Text → Json → Except LoadError α} (h : KeyFree read)
    (name camelName : Text)
    (store : Config → α → Config) : SpellingFree (.make name camelName read store) :=
  fun key key' v c => (h key key' v).map (store c)

theorem fields_spellingFree : ∀ f ∈ fields ++ [valueMapField], SpellingFree f := by
  have hstring := make_spellingFree asString_keyFree
  have hint := make_spellingFree asInt_keyFree
  have hfloat := make_spellingFree asFloat_keyFree
  have hbool := make_spellingFree asBool_keyFree
  have hstrings := make_spellingFree asStrings_keyFree
  have htextMap := make_spellingFree asTextMap_keyFree
  have hoptionalString := make_spellingFree asOptionalString_keyFree
  simp only [fields, valueMapField, List.cons_append, List.nil_append, List.forall_mem_cons,
    hstring, hint, hfloat, hbool, hstrings, htextMap, hoptionalString, List.not_mem_nil,
    false_implies, implies_true, and_self]

/-- No key is a spelling of two settings, and none is that of the rules. -/
theorem spellings_apart :
    (∀ s ∈ spelledSettings, ∀ t ∈ spelledSettings, ∀ key ∈ [s.name, s.camelName],
    t.IsSpelling key → t.name = s.name ∧ t.camelName = s.camelName) ∧
    ∀ s ∈ spelledSettings, ¬s.IsSpelling "rules" := by
  decide +kernel

theorem SameMeaning.isSpelling_iff {key key' : Text} (h : SameMeaning key key') {s : Setting}
    (hs : s ∈ spelledSettings) : s.IsSpelling key ↔ s.IsSpelling key' := by
  obtain rfl | ⟨t, ht, hkey, hkey'⟩ := h
  · rfl
  · -- If one of the keys is a spelling of `s`, then `s` is spelled as `t` is.
    have happart : ∀ key, t.IsSpelling key → s.IsSpelling key →
        s.name = t.name ∧ s.camelName = t.camelName := by
      intro key hkey hs'
      refine spellings_apart.1 t ht s hs key ?_ hs'
      simpa [Setting.IsSpelling] using hkey
    constructor
    · intro hs'
      obtain ⟨hname, hcamelName⟩ := happart key hkey hs'
      rw [Setting.IsSpelling, hname, hcamelName]
      exact hkey'
    · intro hs'
      obtain ⟨hname, hcamelName⟩ := happart key' hkey' hs'
      rw [Setting.IsSpelling, hname, hcamelName]
      exact hkey

theorem SameMeaning.rules_iff {key key' : Text} (h : SameMeaning key key') :
    key = "rules" ↔ key' = "rules" := by
  obtain rfl | ⟨s, hs, hkey, hkey'⟩ := h
  · rfl
  · refine iff_of_false ?_ ?_
    · rintro rfl
      exact spellings_apart.2 s hs hkey
    · rintro rfl
      exact spellings_apart.2 s hs hkey'

/-- The members that set a setting are the same, but for their spelling. -/
theorem Respelled.given (h : Respelled members members') {s : Setting} (hs : s ∈ spelledSettings) :
    Respelled (given s.name s.camelName members) (given s.name s.camelName members') := by
  refine List.rel_filter ?_ h
  intro m m' hm
  have hiff := hm.1.isSpelling_iff hs
  simpa [Setting.IsSpelling] using hiff

theorem Respelled.get?_rules (h : Respelled members members') :
    Json.get? "rules" members' = Json.get? "rules" members := by
  induction h with
  | nil => rfl
  | @cons m m' rest rest' hm _ ih =>
    have hiff := hm.1.rules_iff
    rw [Json.get?, Json.get?, List.find?_cons, List.find?_cons]
    by_cases hkey : m.1 = "rules"
    · simp [hkey, hiff.1 hkey, hm.2]
    · have hkey' : m'.1 ≠ "rules" := fun h' => hkey (hiff.2 h')
      simpa [Json.get?, hkey, hkey'] using ih

theorem ofJson_of_respelled (hkeys : (members.map Prod.fst).Nodup)
    (hkeys' : (members'.map Prod.fst).Nodup) (h : Respelled members members') :
    SameAnswer (ofJson root (.obj members')) (ofJson root (.obj members)) := by
  apply ofJson_related (R := SameAnswer)
  · exact fun c => .refl _
  · exact fun x y f g hxy hfg => hxy.bind hfg
  · intro f hf c
    obtain ⟨s, hs, hname, hcamelName⟩ := exists_setting hf
    rw [update_eq hkeys, update_eq hkeys', ← hname, ← hcamelName]
    -- The same number of members sets the field, so it is left alone, read or rejected on both
    -- sides.
    have hgiven := h.given hs
    generalize given s.name s.camelName members = found at hgiven
    generalize given s.name s.camelName members' = found' at hgiven
    match hgiven with
    | .nil => exact .refl _
    | .cons (a := m) (b := m') hm .nil =>
      show SameAnswer (f.apply m'.1 m'.2 c) (f.apply m.1 m.2 c)
      rw [hm.2]
      exact fields_spellingFree f hf _ _ _ _
    | .cons _ (.cons _ _) => exact .refl _
  · intro c
    rw [updateRules, updateRules, h.get?_rules]
    exact .refl _

/-! ## Settings that are set twice -/

theorem valueVerdict_eq (members : List (Text × Json)) :
    valueVerdict (.obj members) = inTurn (parts.map (·.verdict members)) := by
  rw [parts, List.map_append, List.map_map]
  rfl

theorem Setting.IsSetTwice.verdict {s : Setting} (h : s.IsSetTwice members) :
    s.verdict members = rejected := by
  obtain ⟨hne, hname, hcamelName⟩ := h
  obtain ⟨v, hv⟩ := Json.exists_get? hname
  obtain ⟨w, hw⟩ := Json.exists_get? hcamelName
  rw [Setting.verdict, hv, hw]
  exact if_neg hne

/-- A setting that is set twice is rejected, unless something that is read before it is fatal. -/
theorem ofJson_of_isSetTwice (root : Path) {s : Setting} {before behind : List Part}
    (hsplit : parts = before ++ .setting s :: behind) (h : s.IsSetTwice members) :
    of (ofJson root (.obj members)) =
      (inTurn (before.map (·.verdict members))).andThen rejected := by
  rw [ofJson_verdict, valueVerdict_eq, hsplit, List.map_append, inTurn_append, List.map_cons,
    inTurn_cons]
  show (inTurn _).andThen ((s.verdict members).andThen _) = _
  rw [h.verdict]
  rfl

/-! ## Merging -/

/-- **Merging is pointwise, and insensitive to order and spelling.** For an object with distinct
keys: its members may be reordered, and its settings spelled otherwise, and the same configuration
comes of it, or none in both cases. A setting that is set in both spellings fails, and as a problem
of the file, unless something that is read before it is fatal. Members that are not looked for have
no effect. And a configuration that comes of it is the default one, changed where the object says
something. -/
theorem ofJson_merges (root : Path) (hdistinct : (Json.obj members).Distinct) :
    (∀ members', members'.Perm members → ofJson root (.obj members') = ofJson root (.obj members)) ∧
    (∀ members', Respelled members members' → (members'.map Prod.fst).Nodup →
      ∀ c, ofJson root (.obj members') = .ok c ↔ ofJson root (.obj members) = .ok c) ∧
    (∀ before s behind, parts = before ++ .setting s :: behind → s.IsSetTwice members →
      (∀ c, ofJson root (.obj members) ≠ .ok c) ∧
      ((∃ problem, ofJson root (.obj members) = .error (.problem problem)) ↔
        inTurn (before.map (·.verdict members)) ≠ fatal)) ∧
    ofJson root (.obj (members.filter fun m => IsKnown m.1)) = ofJson root (.obj members) ∧
    ∀ c, ofJson root (.obj members) = .ok c → Overrides { root } members c := by
  refine ⟨?_, ?_, ?_, ofJson_filter_isKnown root members, ?_⟩
  · intro members' hperm
    exact ofJson_of_perm hdistinct.keys hperm
  · intro members' hspelled hkeys
    exact ofJson_of_respelled hdistinct.keys hkeys hspelled
  · intro before s behind hsplit htwice
    have hverdict := ofJson_of_isSetTwice root hsplit htwice
    refine ⟨?_, ?_⟩
    · intro c hc
      rw [hc, of_ok] at hverdict
      cases hbefore : inTurn (before.map (·.verdict members)) <;> rw [hbefore] at hverdict <;>
        cases hverdict
    · rw [← of_eq_rejected, hverdict]
      cases inTurn (before.map (·.verdict members)) <;> decide
  · intro c hc
    exact overrides_of_ofJson hdistinct hc

/-! ## Objects of a site -/

/-- One rule removed and one replaced, more retries, a member that nobody looks for, and names for
values. -/
def siteMembers : List (Text × Json) := [
  ("rules", .obj [("mt", .null), ("gap", .obj [("property", .str "row-gap")])]),
  ("maxRetries", .int 5),
  ("author", .arr [.str "me"]),
  ("value_map", .obj [("half", .str "50%"), ("full", .int 99)])]

/-- The same members in the other spelling. -/
def respelledMembers : List (Text × Json) := [
  ("rules", .obj [("mt", .null), ("gap", .obj [("property", .str "row-gap")])]),
  ("max_retries", .int 5),
  ("author", .arr [.str "me"]),
  ("valueMap", .obj [("half", .str "50%"), ("full", .int 99)])]

/-- The delay of retries in both spellings. -/
def twiceMembers : List (Text × Json) := [("retryDelay", .int 1), ("retry_delay", .int 2)]

/-- The delay of retries in both spellings, and behind infinitely many retries. -/
def hastyMembers : List (Text × Json) :=
  ("maxRetries", .float (Binary64.infinity false)) :: twiceMembers

theorem distinct_siteMembers : (Json.obj siteMembers).Distinct := by
  have hgap : (Json.obj [("property", .str "row-gap")]).Distinct :=
    .member (by decide) (.str _) Json.distinct_nil
  have hrules : (Json.obj [("mt", .null), ("gap", .obj [("property", .str "row-gap")])]).Distinct :=
    .member (by decide) .null (.member (by decide) hgap Json.distinct_nil)
  have hnames : (Json.obj [("half", .str "50%"), ("full", .int 99)]).Distinct :=
    .member (by decide) (.str _) (.member (by decide) (.int _) Json.distinct_nil)
  have hauthor : (Json.arr [.str "me"]).Distinct := .arr (by simp [Json.Distinct.str])
  exact .member (by decide) hrules (.member (by decide) (.int _) (.member (by decide) hauthor
    (.member (by decide) hnames Json.distinct_nil)))

theorem distinct_twiceMembers : (Json.obj twiceMembers).Distinct :=
  .member (by decide) (.int _) (.member (by decide) (.int _) Json.distinct_nil)

/-- The delay of retries. -/
def retryDelaySetting : Setting := ⟨"retry_delay", "retryDelay", .integer⟩

/-- The members of a site may be spelled otherwise and stand in any order. They change what they say
and nothing else. A setting in both spellings is a problem. -/
theorem siteMembers_merge : (Json.obj siteMembers).Distinct ∧
    (∃ c, ofJson (.ofText "/site") (.obj siteMembers) = .ok c ∧
      ofJson (.ofText "/site") (.obj siteMembers.reverse) = .ok c ∧
      ofJson (.ofText "/site") (.obj respelledMembers) = .ok c ∧
      c.maxRetries = 5 ∧ c.retryDelay = 1000 ∧ c.rules.get? "mt" = none ∧
        c.rules.get? "m" = defaultRules.get? "m" ∧
      c.valueMap.get? "full" = some "99" ∧ c.valueMap.get? "auto" = some "auto") ∧
    ∃ problem, ofJson (.ofText "/site") (.obj twiceMembers) = .error (.problem problem) := by
  obtain ⟨horder, hspelling, -, -, hmerged⟩ := ofJson_merges (.ofText "/site") distinct_siteMembers
  obtain ⟨-, -, htwice, -, -⟩ := ofJson_merges (.ofText "/site") distinct_twiceMembers
  have hretries : SameMeaning "maxRetries" "max_retries" :=
    .inr ⟨⟨"max_retries", "maxRetries", .integer⟩, by simp [spelledSettings, settings], by
      decide, by decide⟩
  have hvalues : SameMeaning "value_map" "valueMap" :=
    .inr ⟨valueMapSetting, by simp [spelledSettings], by decide, by decide⟩
  have hrespelled : Respelled siteMembers respelledMembers :=
    .cons ⟨.inl rfl, rfl⟩
      (.cons ⟨hretries, rfl⟩ (.cons ⟨.inl rfl, rfl⟩ (.cons ⟨hvalues, rfl⟩ .nil)))
  refine ⟨distinct_siteMembers, ?_, ?_⟩
  · obtain ⟨c, hc⟩ := of_eq_taken.1
      (show of (ofJson (.ofText "/site") (.obj siteMembers)) = taken by decide +kernel)
    have hset := hmerged c hc
    refine ⟨c, hc, ?_, ?_, ?_, ?_, ?_, ?_, ?_, ?_⟩
    · rw [horder _ (List.reverse_perm _), hc]
    · exact (hspelling respelledMembers hrespelled (by decide) c).2 hc
    · exact (Except.ok.inj hset.maxRetries).symm
    · exact hset.retryDelay
    · exact hset.rules "mt"
    · exact hset.rules "m"
    · exact hset.valueMap "full"
    · exact (hset.valueMap "auto").trans (by decide)
  · exact (htwice (parts.take 8) retryDelaySetting (parts.drop 9) rfl (by decide)).2.2
      (by decide +kernel)

/-- **A setting that is set twice is not always a problem of the file.** Infinitely many retries
come first, and the error that they make escapes. -/
theorem hastyMembers_escape :
    (Json.obj hastyMembers).Distinct ∧ retryDelaySetting.IsSetTwice hastyMembers ∧
    ∃ e, ofJson (.ofText "/site") (.obj hastyMembers) = .error e ∧
      ∀ problem, e ≠ .problem problem :=
  ⟨.member (by decide) (.float _) distinct_twiceMembers, by decide,
    of_eq_fatal.1 (by decide +kernel)⟩

end UtilityCss.Config
