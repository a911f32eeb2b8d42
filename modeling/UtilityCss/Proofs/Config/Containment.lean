import Mathlib.Data.List.Forall2
import UtilityCss.Config.Loader
import UtilityCss.Proofs.Answers
import UtilityCss.Proofs.Decimal.Range
/-!
# Which configuration files are contained

A bad configuration file should do no harm: loading it should end with a configuration, or with a
problem that can be reported and answered with the defaults. But reading and converting values can
also end with an error that is no problem of the configuration, and such an error is fatal to
whoever loads the file.

Here every part of a file has a verdict, which is read off the part itself: its bytes, its text, the
values of its settings and the specifications of its rules. Parts are read in turn, and the first
that is not taken decides. Loading a file gives the verdict on its content, so a file is contained
unless that is fatal.
-/

namespace UtilityCss.Config

variable {α β : Type}

/-! ## Verdicts -/

/-- What comes of reading something: it is taken, it is rejected with a problem, or another error
ends the reading. -/
inductive Verdict where
  | taken
  | rejected
  | fatal
  deriving DecidableEq, Repr

namespace Verdict

/-- The verdict on two things, the second of which is read if the first is taken. -/
def andThen : Verdict → Verdict → Verdict
  | taken, v => v
  | v, _ => v

/-- The verdict on things that are read in turn, up to the first that is not taken. -/
def inTurn (vs : List Verdict) : Verdict := vs.foldr andThen taken

@[simp] theorem taken_andThen (v : Verdict) : taken.andThen v = v := rfl

@[simp] theorem andThen_taken (v : Verdict) : v.andThen taken = v := by cases v <;> rfl

theorem andThen_assoc (u v w : Verdict) : (u.andThen v).andThen w = u.andThen (v.andThen w) := by
  cases u <;> rfl

@[simp] theorem inTurn_nil : inTurn [] = taken := rfl

@[simp] theorem inTurn_cons (v : Verdict) (vs : List Verdict) :
    inTurn (v :: vs) = v.andThen (inTurn vs) := rfl

theorem inTurn_append (us vs : List Verdict) :
    inTurn (us ++ vs) = (inTurn us).andThen (inTurn vs) := by
  induction us with
  | nil => rfl
  | cons u us ih => rw [List.cons_append, inTurn_cons, ih, inTurn_cons, andThen_assoc]

/-- The verdict that an attempt to read something ends with. -/
def of : Except LoadError α → Verdict
  | .ok _ => taken
  | .error (.problem _) => rejected
  | .error _ => fatal

@[simp] theorem of_ok (a : α) : of (.ok a) = taken := rfl

theorem of_eq_taken {x : Except LoadError α} : of x = taken ↔ ∃ a, x = .ok a := by
  rcases x with (_ | _) | a <;> simp [of]

theorem of_eq_rejected {x : Except LoadError α} :
    of x = rejected ↔ ∃ problem, x = .error (.problem problem) := by
  rcases x with (_ | _) | a <;> simp [of]

@[simp] theorem of_map (f : α → β) (x : Except LoadError α) : of (x.map f) = of x := by
  rcases x with (_ | _) | a <;> rfl

/-- What is read after something else has its own verdict, if that does not depend on what was read
before. -/
theorem of_bind {f : α → Except LoadError β} {v : Verdict} (x : Except LoadError α)
    (h : ∀ a, of (f a) = v) : of (x >>= f) = (of x).andThen v := by
  rcases x with e | a
  · cases e <;> rfl
  · exact h a

theorem of_eq_fatal {x : Except LoadError α} :
    of x = fatal ↔ ∃ e, x = .error e ∧ ∀ problem, e ≠ .problem problem := by
  rcases x with (_ | _) | a <;> simp [of]

/-- What is made of something that was read does not change the verdict. -/
theorem of_bind_taken {f : α → Except LoadError β} (x : Except LoadError α)
    (h : ∀ a, of (f a) = taken) : of (x >>= f) = of x := by
  rw [of_bind x h, andThen_taken]

/-- An error of another kind than a problem is fatal, whatever it is about. -/
theorem of_mapError {ε : Type} {g : ε → LoadError} (hg : ∀ e problem, g e ≠ .problem problem)
    (x : Except ε α) : of (x.mapError g) = if x.toBool then taken else fatal := by
  rcases x with e | a
  · show of (.error (g e) : Except LoadError α) = fatal
    cases hge : g e with
    | problem problem => exact absurd hge (hg e problem)
    | _ => rfl
  · rfl

end Verdict

open Verdict

/-! ## Settings -/

/-- What the value of a setting has to be. -/
inductive Kind where
  | text
  /-- One text or a list of texts. -/
  | texts
  | integer
  | number
  | flag
  /-- An object. -/
  | table
  /-- A text or nothing. -/
  | optionalText

def isText : Json → Bool
  | .str _ => true
  | _ => false

/-- The verdict on a value for a setting of some kind. Where an integer is needed, it is fatal to
give infinity or what is not a number, and where a double is needed, to give an integer that no
double is near. -/
def Kind.verdict : Kind → Json → Verdict
  | text, .str _ | texts, .str _ | integer, .int _ | number, .float _ | flag,
    .bool _ | table, .obj _
  | optionalText, .str _ | optionalText, .null => taken
  | texts, .arr items => if items.all isText then taken else rejected
  | integer, .float x =>
    match Binary64.parts x with
    | .finite _ _ _ => taken
    | _ => fatal
  | number, .int i => if i.natAbs < twoTo 1024 - twoTo 970 then taken else fatal
  | _, _ => rejected

/-- A way to read values gives the verdicts of a kind. -/
def Reads (read : Text → Json → Except LoadError α) (kind : Kind) : Prop :=
  ∀ key v, of (read key v) = kind.verdict v

theorem asString_reads : Reads asString .text := by
  intro key v
  cases v <;> rfl

theorem asInt_reads : Reads asInt .integer := by
  intro key v
  cases v with
  | float x =>
    rw [asInt, of_mapError nofun, Binary64.truncate, Kind.verdict]
    cases Binary64.parts x <;> rfl
  | _ => rfl

theorem asFloat_reads : Reads asFloat .number := by
  intro key v
  cases v with
  | int i =>
    rw [asFloat, of_mapError nofun, Binary64.ofInt_toBool, Kind.verdict]
    simp only [decide_eq_true_eq]
  | _ => rfl

theorem asBool_reads : Reads asBool .flag := by
  intro key v
  cases v <;> rfl

theorem asTextMap_reads : Reads asTextMap .table := by
  intro key v
  cases v <;> rfl

theorem asOptionalString_reads : Reads asOptionalString .optionalText := by
  intro key v
  cases v <;> rfl

/-- The text that a value is. -/
def text? : Json → Option Text
  | .str s => some s
  | _ => none

theorem isSome_mapM_text? (items : List Json) : (items.mapM text?).isSome = items.all isText := by
  induction items with
  | nil => rfl
  | cons v items ih =>
    have hfirst : (text? v).isSome = isText v := by cases v <;> rfl
    rw [List.mapM_cons, List.all_cons, ← hfirst, ← ih]
    cases text? v with
    | none => rfl
    | some t => cases items.mapM text? <;> rfl

theorem asStrings_reads : Reads asStrings .texts := by
  intro key v
  cases v with
  | arr items =>
    have hverdict : Kind.texts.verdict (.arr items) = if items.all isText then taken
        else rejected := rfl
    rw [hverdict, ← isSome_mapM_text?]
    unfold asStrings
    dsimp only
    split
    · rename_i texts htexts
      rw [show items.mapM text? = some texts from htexts]
      rfl
    · rename_i htexts
      rw [show items.mapM text? = none from htexts]
      rfl
  | _ => rfl

/-- A setting with its two spellings, and what its value has to be. -/
structure Setting where
  name : Text
  camelName : Text
  kind : Kind

/-- The settings in the order in which they are read. -/
def settings : List Setting := [
  ⟨"unit", "unit", .text⟩,
  ⟨"watch_patterns", "watchDirs", .texts⟩,
  ⟨"output_dir", "outputDir", .text⟩,
  ⟨"output_file_name", "outputFileName", .text⟩,
  ⟨"batch_base_delay", "batchBaseDelay", .integer⟩,
  ⟨"batch_delay_per_file", "batchDelayPerFile", .integer⟩,
  ⟨"max_batch_delay", "maxBatchDelay", .integer⟩,
  ⟨"max_retries", "maxRetries", .integer⟩,
  ⟨"retry_delay", "retryDelay", .integer⟩,
  ⟨"retry_backoff_factor", "retryBackoffFactor", .number⟩,
  ⟨"minify", "minify", .flag⟩,
  ⟨"existing_css_files", "existingCssFiles", .texts⟩,
  ⟨"ignore_existing_classes", "ignoreExistingClasses", .flag⟩,
  ⟨"banner", "banner", .text⟩,
  ⟨"footer", "footer", .text⟩,
  ⟨"split_namespaces", "splitNamespaces", .table⟩,
  ⟨"scan_workers", "scanWorkers", .integer⟩,
  ⟨"poll_interval", "pollInterval", .number⟩,
  ⟨"log_file", "logFile", .optionalText⟩]

/-- The setting for the names of values. -/
def valueMapSetting : Setting := ⟨"value_map", "valueMap", .table⟩

/-- The verdict on the members of an object as far as a setting is concerned. Two spellings at once
are rejected. -/
def Setting.verdict (s : Setting) (members : List (Text × Json)) : Verdict :=
  match Json.get? s.name members, Json.get? s.camelName members with
  | none, none => taken
  | some v, none | none, some v => s.kind.verdict v
  | some v, some _ => if s.name = s.camelName then s.kind.verdict v else rejected

/-- A field of a configuration gives the verdicts of a setting. -/
def Follows (f : Field) (s : Setting) : Prop :=
  ∀ members c, of (f.update members c) = s.verdict members

theorem make_follows {read : Text → Json → Except LoadError α} {kind : Kind} (h : Reads read kind)
    (name camelName : Text) (store : Config → α → Config) :
    Follows (.make name camelName read store) ⟨name, camelName, kind⟩ := by
  intro members c
  have happly : ∀ key v, of ((Field.make name camelName read store).apply key v c) =
      kind.verdict v :=
    fun key v => (of_map _ _).trans (h key v)
  have hname : (Field.make name camelName read store).name = name := rfl
  have hcamelName : (Field.make name camelName read store).camelName = camelName := rfl
  unfold Field.update Field.find? Setting.verdict
  rw [hname, hcamelName]
  cases Json.get? name members <;> cases Json.get? camelName members
  · rfl
  · exact happly _ _
  · exact happly _ _
  · dsimp only
    split
    · exact happly _ _
    · rfl

theorem fields_follow : List.Forall₂ Follows fields settings := by
  have htext := make_follows asString_reads
  have htexts := make_follows asStrings_reads
  have hinteger := make_follows asInt_reads
  have hnumber := make_follows asFloat_reads
  have hflag := make_follows asBool_reads
  have htable := make_follows asTextMap_reads
  have hoptionalText := make_follows asOptionalString_reads
  simp only [fields, settings, List.forall₂_cons, htext, htexts, hinteger, hnumber, hflag, htable,
    hoptionalText, List.forall₂_nil_left_iff, and_self]

theorem fields_verdict {fs : List Field} {ss : List Setting} (h : List.Forall₂ Follows fs ss)
    (members : List (Text × Json)) (c : Config) :
    of (fs.foldlM (fun c f => f.update members c) c) = inTurn (ss.map (·.verdict members)) := by
  induction h generalizing c with
  | nil => rfl
  | cons hfirst _ ih =>
    rw [List.foldlM_cons, of_bind _ ih, hfirst, List.map_cons, inTurn_cons]

theorem valueMap_follows : Follows valueMapField valueMapSetting :=
  make_follows asTextMap_reads _ _ _

/-! ## Rules -/

/-- A list or an object cannot be a key. -/
def isKey : Json → Bool
  | .arr _ | .obj _ => false
  | _ => true

/-- A pair that a value map may be given by: two items, the first of which can be a key. -/
def isPair (entry : Json) : Bool :=
  match Rule.Spec.items? entry with
  | some [key, _] => isKey key
  | _ => false

/-- What a value map may be given by: an object, or items that are pairs. -/
def isMapping : Json → Bool
  | .obj _ => true
  | v => (Rule.Spec.items? v).any (·.all isPair)

/-- An object describes a rule if its properties are a text or several items, and its value map is
not set or is one. -/
def describesRule (members : List (Text × Json)) : Bool :=
  let properties := Rule.Spec.member members "property" "properties" (.arr [])
  let valueMap := Rule.Spec.member members "valueMap" "value_map" .null
  (Rule.Spec.items? properties).isSome && (!valueMap.isSet || isMapping valueMap)

/-- The verdict on the specification of a rule. An object that does not describe a rule is fatal. -/
def specVerdict : Json → Verdict
  | .null => taken
  | .obj members => if describesRule members then taken else fatal
  | _ => rejected

/-- The verdict on the members of an object as far as the rules are concerned. -/
def rulesVerdict (members : List (Text × Json)) : Verdict :=
  match Json.get? "rules" members with
  | none | some .null => taken
  | some (.obj specs) => inTurn (specs.map fun spec => specVerdict spec.2)
  | some _ => rejected

theorem properties_toBool (v : Json) :
    (Rule.Spec.properties v).toBool = (Rule.Spec.items? v).isSome := by
  cases v <;> rfl

theorem pairsFrom_toBool (index : Nat) (found : List (Json × Json)) (entries : List Json) :
    (Rule.Spec.pairsFrom index found entries).toBool = entries.all isPair := by
  induction entries generalizing index found with
  | nil => rfl
  | cons entry entries ih =>
    rw [List.all_cons, isPair, Rule.Spec.pairsFrom]
    rcases Rule.Spec.items? entry with _ | _ | ⟨key, _ | ⟨value, _ | _⟩⟩
    case some.cons.cons.nil =>
      cases key with
      | arr _ | obj _ => rfl
      | _ => exact ih _ _
    all_goals rfl

theorem valueMap_toBool (v : Json) : (Rule.Spec.valueMap v).toBool = (!v.isSet || isMapping v) := by
  have hpairs : (Rule.Spec.pairs v).toBool = isMapping v := by
    cases v with
    | str _ | arr _ => exact pairsFrom_toBool _ _ _
    | _ => rfl
  rw [Rule.Spec.valueMap, ← hpairs]
  cases v.isSet
  · rfl
  · cases Rule.Spec.pairs v <;> rfl

theorem toRule_toBool (p : Text) (members : List (Text × Json)) :
    (Rule.Spec.toRule p members).toBool = describesRule members := by
  rw [describesRule, ← properties_toBool, ← valueMap_toBool, Rule.Spec.toRule]
  cases Rule.Spec.properties (Rule.Spec.member members "property" "properties" (.arr [])) with
  | error e => rfl
  | ok properties =>
    cases Rule.Spec.valueMap (Rule.Spec.member members "valueMap" "value_map" .null) <;> rfl

theorem readRules_verdict (specs : List (Text × Json)) :
    of (readRules specs) = inTurn (specs.map fun spec => specVerdict spec.2) := by
  induction specs with
  | nil => rfl
  | cons spec specs ih =>
    obtain ⟨p, spec⟩ := spec
    rw [List.map_cons, inTurn_cons, ← ih]
    cases spec with
    | null =>
      rw [readRules]
      exact of_bind_taken _ fun _ => rfl
    | obj members =>
      have hrule : of ((Rule.Spec.toRule p members).mapError LoadError.rule) =
          specVerdict (.obj members) := by
        rw [of_mapError nofun, toRule_toBool, specVerdict]
      rw [readRules, ← hrule]
      exact of_bind _ fun r => of_bind_taken _ fun _ => rfl
    | _ => rfl

theorem updateRules_verdict (members : List (Text × Json)) (c : Config) :
    of (updateRules members c) = rulesVerdict members := by
  rw [updateRules, rulesVerdict]
  rcases Json.get? "rules" members with _ | (_ | _ | _ | _ | _ | _ | specs)
  case some.obj =>
    exact (of_bind_taken _ fun _ => rfl).trans (readRules_verdict specs)
  all_goals rfl

/-! ## Files -/

/-- The verdict on a value that should describe a configuration. The settings come first, then the
rules, and the names for values come last. -/
def valueVerdict : Json → Verdict
  | .obj members =>
    inTurn (settings.map (·.verdict members) ++
      [rulesVerdict members, valueMapSetting.verdict members])
  | _ => rejected

/-- The verdict on a text: integers that are too long and values that are nested too deeply are
fatal. -/
def textVerdict (text : Text) : Verdict :=
  if Text.isBlankText text then taken
  else
    match Json.read .distinct text with
    | .ok v => valueVerdict v
    | .error (.integerTooLong _) | .error (.nestedTooDeep _) => fatal
    | .error _ => rejected

/-- The verdict on the bytes of a configuration file. Bytes that are no text are fatal. -/
def contentVerdict (bytes : List UInt8) : Verdict :=
  match Text.Utf8.decodeStrict bytes with
  | .ok text => textVerdict (Text.ofFile text)
  | .error _ => fatal

theorem ofJson_verdict (root : Path) (v : Json) : of (ofJson root v) = valueVerdict v := by
  cases v with
  | obj members =>
    have hrest : ∀ c : Config,
        of (updateRules members c >>= fun c => valueMapField.update members c) =
        (rulesVerdict members).andThen (valueMapSetting.verdict members) := by
      intro c
      rw [of_bind _ fun c => valueMap_follows members c, updateRules_verdict]
    have hlist : inTurn [rulesVerdict members, valueMapSetting.verdict members] =
        (rulesVerdict members).andThen (valueMapSetting.verdict members) := by
      rw [inTurn_cons, inTurn_cons, inTurn_nil, andThen_taken]
    rw [ofJson, of_bind _ hrest, fields_verdict fields_follow, valueVerdict, inTurn_append, hlist]
  | _ => rfl

theorem ofText_verdict (file : Path) (text : Text) : of (ofText file text) = textVerdict text := by
  rw [ofText, textVerdict]
  split
  · rfl
  · rcases Json.read .distinct text with (_ | _ | _ | _) | v
    case ok => exact ofJson_verdict _ v
    all_goals rfl

section Loading

variable {d : Disk} {p file : Path} {found : Option Entry}

/-- What reading an entry at a path gives. -/
def entryContent (file : Path) : Entry → Except DiskError (List UInt8)
  | .file bytes _ => .ok bytes
  | .folder => .error (.path .isADirectory file)

theorem content_of_look {entry : Entry} (hlook : d.look file = .ok (some entry)) :
    d.content file = entryContent file entry := by
  unfold Disk.look at hlook
  unfold Disk.content
  cases hl : d.locate file with
  | ok l =>
    rw [hl] at hlook
    simp only [Except.ok.inj hlook]
    cases entry <;> rfl
  | error e =>
    rw [hl] at hlook
    split at hlook
    · contradiction
    · contradiction
    · exact absurd (Except.ok.inj hlook) nofun

theorem content_of_missing (hlook : d.look file = .ok none) : ∃ e, d.content file = .error e := by
  unfold Disk.look at hlook
  unfold Disk.content
  cases hl : d.locate file with
  | ok l =>
    rw [hl] at hlook
    simp only [Except.ok.inj hlook]
    exact ⟨_, rfl⟩
  | error e => exact ⟨e, rfl⟩

/-- What is loaded where the configuration file should be. -/
def loadFound (file : Path) : Option Entry → Except LoadError Config
  | none => .ok { root := file.parent }
  | some .folder => .error (.problem (.unreadable file (.path .isADirectory file)))
  | some (.file bytes _) => (Text.Utf8.decodeStrict bytes).mapError .encoding >>= fun text =>
    ofText file (Text.ofFile text)

theorem load_eq (hfile : filePath d p = .ok file) (hlook : d.look file = .ok found) :
    load d p = loadFound file found := by
  rw [load, hfile]
  show ((d.look file).mapError LoadError.disk >>= _) = _
  rw [hlook]
  cases found with
  | none => rfl
  | some entry =>
    rw [content_of_look hlook]
    cases entry <;> rfl

/-- The verdict on a configuration file: a missing one is taken for an empty one, a directory in its
place is rejected, and otherwise the content decides. -/
def fileVerdict : Option Entry → Verdict
  | none => taken
  | some .folder => rejected
  | some (.file bytes _) => contentVerdict bytes

theorem load_verdict (hfile : filePath d p = .ok file) (hlook : d.look file = .ok found) :
    of (load d p) = fileVerdict found := by
  rw [load_eq hfile hlook]
  rcases found with _ | (⟨bytes, _⟩ | _)
  · rfl
  · rw [loadFound, fileVerdict, contentVerdict]
    cases Text.Utf8.decodeStrict bytes with
    | error e => rfl
    | ok text => exact ofText_verdict file _
  · rfl

/-- Loading a configuration ends well: there is a configuration, or a problem with the file, which
is reported and answered with the defaults. -/
def Contained (d : Disk) (p file : Path) : Prop :=
  (∃ c, load d p = .ok c ∧ loadOrDefault d p = (.ok c, [])) ∨
  ∃ problem, load d p = .error (.problem problem) ∧ loadOrDefault d p =
    (.ok { root := file.parent },
      [.line ⟨.warning, "Failed to load config file: " ++ problem.message⟩])

/-- Loading a configuration ends with an error that is no problem of the file, and the defaults do
not help. -/
def Escapes (d : Disk) (p : Path) : Prop :=
  ∃ e, load d p = .error e ∧ (∀ problem, e ≠ .problem problem) ∧ loadOrDefault d p = (.error e, [])

theorem escapes_of_fatal (h : of (load d p) = fatal) : Escapes d p := by
  obtain ⟨e, he, hproblem⟩ := of_eq_fatal.1 h
  refine ⟨e, he, hproblem, ?_⟩
  rw [loadOrDefault, he]
  cases e with
  | problem problem => exact absurd rfl (hproblem problem)
  | _ => rfl

theorem contained_iff_not_fatal (hfile : filePath d p = .ok file) :
    Contained d p file ↔ of (load d p) ≠ fatal := by
  constructor
  · rintro (⟨c, h, -⟩ | ⟨problem, h, -⟩) <;> rw [h] <;> exact nofun
  · intro h
    cases hv : of (load d p) with
    | taken =>
      obtain ⟨c, hc⟩ := of_eq_taken.1 hv
      exact .inl ⟨c, hc, by rw [loadOrDefault, hc]⟩
    | rejected =>
      obtain ⟨problem, hproblem⟩ := of_eq_rejected.1 hv
      exact .inr ⟨problem, hproblem, by rw [loadOrDefault, hproblem, hfile]; rfl⟩
    | fatal => exact absurd hv h

/-- **Containment of bad files.** Whatever a configuration file contains, and also if it is missing,
loading ends well exactly if the verdict on its content is not fatal. Otherwise an error escapes. -/
theorem contained_iff (hfile : filePath d p = .ok file) (hlook : d.look file = .ok found) :
    (Contained d p file ↔ ∀ bytes, d.content file = .ok bytes → contentVerdict bytes ≠ fatal) ∧
    (¬Contained d p file → Escapes d p) := by
  rw [contained_iff_not_fatal hfile]
  refine ⟨?_, fun h => escapes_of_fatal (not_not.1 h)⟩
  rw [load_verdict hfile hlook]
  cases found with
  | none =>
    obtain ⟨e, he⟩ := content_of_missing hlook
    rw [he]
    exact iff_of_true nofun nofun
  | some entry =>
    rw [content_of_look hlook]
    cases entry with
    | file bytes modified => simp only [fileVerdict, entryContent, Except.ok.injEq, forall_eq']
    | folder => exact iff_of_true nofun nofun

end Loading

/-! ## The configuration file of a site -/

/-- A disk with a configuration file. -/
def siteDisk (content : List UInt8) : Disk :=
  { Disk.new ["site"] with
    entries :=
      .ofList [(.ofList ["site"], .folder), (.ofList ["site", fileName], .file content 0)] }

/-- The bytes of a text in ASCII. -/
def asciiBytes (s : String) : List UInt8 := s.toList.map fun c => c.toNat.toUInt8

/-- Half a retry too many, an integer for a factor, a rule with its value map as a list of pairs,
and a rule that is removed. -/
def oddContent : List UInt8 :=
  asciiBytes <|
    "\x7b\"maxRetries\": 2.5, \"retryBackoffFactor\": 2, \"rules\": \x7b\"m\": null, " ++
    "\"gap\": \x7b\"property\": [\"gap\"], \"valueMap\": [[\"xl\", 64]]\x7d\x7d\x7d"

theorem odd_content_contained :
    Contained (siteDisk oddContent) (.ofText "/site") (.ofText "/site/watchclass.json") := by
  have hlook : (siteDisk oddContent).look (.ofText "/site/watchclass.json") =
      .ok (some (.file oddContent 0)) := by
    decide +kernel
  refine (contained_iff (by decide +kernel) hlook).1.2 fun bytes hbytes => ?_
  obtain rfl := Except.ok.inj ((content_of_look hlook).symm.trans hbytes)
  decide +kernel

/-- **Not every file is contained.** Errors escape if a file is no text, if the number of retries is
infinity, and if the properties of a rule are a number. -/
theorem bad_content_escapes :
    Escapes (siteDisk [0xC3]) (.ofText "/site") ∧
    Escapes (siteDisk (asciiBytes "\x7b\"maxRetries\": Infinity\x7d")) (.ofText "/site") ∧
    Escapes (siteDisk (asciiBytes "\x7b\"rules\": \x7b\"a\": \x7b\"property\": 7\x7d\x7d\x7d"))
      (.ofText "/site") :=
  ⟨escapes_of_fatal (by decide +kernel), escapes_of_fatal (by decide +kernel),
    escapes_of_fatal (by decide +kernel)⟩

end UtilityCss.Config
