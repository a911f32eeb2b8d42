import UtilityCss.Proofs.Json.RepeatedKeys
/-!
# Configuration files with repeated keys

A configuration file may repeat a key in any object: among the settings, among the rules, or in a
part that has no effect. None of these files is loaded. As the objects are closed while the text is
still being read, a repeated key is reported before any setting is looked at, and so it goes before
everything that is wrong with the values.

But a key can only be reported where there is room for it. If the first object in the way is so deep
inside that no call is left to look at its keys or to report one of them, the file is refused with
the error of a nesting that is too deep, although nothing is nested too deeply to be read.
-/

namespace UtilityCss.Config

variable {d : Disk} {p file : Path} {bytes : List UInt8} {modified : Int} {source text : Text}
  {v : Json}

/-- A text is read with distinct keys before its value is looked at. -/
theorem ofText_of_not_blank (hblank : Text.isBlankText text = false) : ofText file text =
    (Json.read .distinct text).mapError (readError file text) >>= ofJson file.parent := by
  unfold ofText
  rw [hblank]
  rfl

/-- A text that is loaded is blank, or it is read with distinct keys. -/
theorem of_ofText_eq_ok {c : Config} (h : ofText file text = .ok c) :
    Text.isBlankText text = true ∨ ∃ v, Json.read .distinct text = .ok v := by
  cases hblank : Text.isBlankText text with
  | true => exact .inl rfl
  | false =>
    rw [ofText_of_not_blank hblank] at h
    obtain ⟨v, hv, -⟩ := bind_eq_ok.1 h
    exact .inr ⟨v, mapError_eq_ok.1 hv⟩

/-- An error in reading a text with distinct keys ends the loading. -/
theorem ofText_of_read_error {e : Json.ReadError} (hwrites : Json.Writes text v)
    (h : Json.read .distinct text = .error e) :
    ofText file text = .error (readError file text e) := by
  rw [ofText_of_not_blank hwrites.not_isBlankText, h]
  rfl

/-- If a text is accepted apart from its keys and repeats one, the first object in the way is
reported. -/
theorem ofText_of_repeated (hwrites : Json.Writes text v)
    (haccepted : ∃ w, Json.read .lastWins text = .ok w) (hrepeated : ¬v.Distinct) :
    ∃ o, v.firstObstacle? = some o ∧
      (o.depth + 2 < Json.nestingLimit → ∃ key, 2 ≤ (o.members.map Prod.fst).count key ∧
        ofText file text = .error (.problem (.duplicateKey key))) ∧
      (Json.nestingLimit ≤ o.depth + 2 →
        ∃ call, ofText file text = .error (.nestedTooDeep call)) := by
  have hjudged := Json.read_distinct hwrites haccepted
  cases hfirst : v.firstObstacle? with
  | none => exact absurd (Json.distinct_of_firstObstacle? hfirst) hrepeated
  | some o =>
    rw [hfirst] at hjudged
    obtain ⟨e, herror, hreports⟩ := hjudged
    refine ⟨o, rfl, fun hroom => ?_, fun hdeep => ?_⟩
    · rw [Json.Closing.Reports, if_pos hroom] at hreports
      obtain ⟨key, hkey, rfl⟩ := hreports
      exact ⟨key, hkey, ofText_of_read_error hwrites herror⟩
    · rw [Json.Closing.Reports, if_neg (Nat.not_lt.2 hdeep)] at hreports
      obtain ⟨call, rfl⟩ := hreports
      exact ⟨call, ofText_of_read_error hwrites herror⟩

/-- A text is loaded as its bytes are decoded. -/
theorem load_eq_ofText (hfile : filePath d p = .ok file)
    (hlook : d.look file = .ok (some (.file bytes modified)))
    (hsource : Text.Utf8.decodeStrict bytes = .ok source) :
    load d p = ofText file (Text.ofFile source) := by
  rw [load_eq hfile hlook, loadFound, hsource]
  rfl

/-- **Repeated keys are never loaded.** If a configuration file is loaded, its text is blank or
writes a value, and in a value that it writes no object has two members with the same key, wherever
it is. Let plain reading, under which the last value of a key counts, accept a text with such an
object. Then there is a first object in the way, and it decides what loading reports, whatever the
values are: a key that it repeats, or, exactly if it is one of the deepest objects that there is
room for, that the nesting is too deep. -/
theorem load_distinct (hfile : filePath d p = .ok file)
    (hlook : d.look file = .ok (some (.file bytes modified)))
    (hsource : Text.Utf8.decodeStrict bytes = .ok source) :
    (∀ c, load d p = .ok c →
      (Text.isBlankText (Text.ofFile source) = true ∨ ∃ v, Json.Writes (Text.ofFile source) v) ∧
      ∀ v, Json.Writes (Text.ofFile source) v → v.Distinct) ∧
    ∀ v, Json.Writes (Text.ofFile source) v →
      (∃ w, Json.read .lastWins (Text.ofFile source) = .ok w) → ¬v.Distinct →
      ∃ o, v.firstObstacle? = some o ∧
        (o.depth + 2 < Json.nestingLimit → ∃ key, 2 ≤ (o.members.map Prod.fst).count key ∧
          load d p = .error (.problem (.duplicateKey key))) ∧
        (Json.nestingLimit ≤ o.depth + 2 → ∃ call, load d p = .error (.nestedTooDeep call)) := by
  rw [load_eq_ofText hfile hlook hsource]
  refine ⟨fun c hc => ?_, fun v => ofText_of_repeated⟩
  rcases of_ofText_eq_ok hc with hblank | ⟨v, hv⟩
  · refine ⟨.inl hblank, fun w hw => ?_⟩
    rw [hw.not_isBlankText] at hblank
    contradiction
  · refine ⟨.inr ⟨v, Json.writes_of_read Json.keeps_distinct hv⟩, fun w hw => ?_⟩
    exact (Json.of_read_distinct hw ⟨v, hv⟩).2

/-- A key is written in two ways in an object that has no effect, and a setting has a value of the
wrong kind. -/
def shadowedContent : List UInt8 :=
  asciiBytes "\x7b\"x\": [\x7b\"a\": 1, \"\\u0061\": 2\x7d], \"unit\": 7\x7d"

/-- The text of the file. -/
def shadowedText : Text := "\x7b\"x\": [\x7b\"a\": 1, \"\\u0061\": 2\x7d], \"unit\": 7\x7d"

/-- The members of the object without effect. -/
def shadowedMembers : List (Text × Json) := [("a", .int 1), ("a", .int 2)]

/-- The value that the text writes. -/
def shadowedValue : Json := .obj [("x", .arr [.obj shadowedMembers]), ("unit", .int 7)]

/-- The key in the object without effect is reported, and not the wrong setting. -/
theorem shadowed_refused : ¬shadowedValue.Distinct ∧
    load (siteDisk shadowedContent) (.ofText "/site") = .error (.problem (.duplicateKey "a")) := by
  have hrepeated : ¬shadowedValue.Distinct := by
    intro h
    have hitem : (Json.arr [.obj shadowedMembers]).Distinct := h.value List.mem_cons_self
    cases hitem with
    | arr hitems =>
      exact absurd (hitems _ List.mem_cons_self).keys (by decide)
  have hfile : filePath (siteDisk shadowedContent) (.ofText "/site") =
      .ok (.ofText "/site/watchclass.json") := by
    decide +kernel
  have hlook : (siteDisk shadowedContent).look (.ofText "/site/watchclass.json") =
      .ok (some (.file shadowedContent 0)) := by
    decide +kernel
  have hsource : Text.Utf8.decodeStrict shadowedContent = .ok shadowedText := by decide +kernel
  obtain ⟨o, ho, hreport, -⟩ :=
    (load_distinct hfile hlook hsource).2 shadowedValue rfl ⟨_, rfl⟩ hrepeated
  obtain rfl : (⟨2, shadowedMembers⟩ : Json.Closing) = o := Option.some.inj ho
  obtain ⟨key, hkey, hload⟩ := hreport (by decide)
  have hmem : key ∈ shadowedMembers.map Prod.fst :=
    List.count_pos_iff.1 (Nat.lt_of_lt_of_le Nat.two_pos hkey)
  obtain rfl : key = "a" := by simpa [shadowedMembers] using hmem
  exact ⟨hrepeated, hload⟩

/-! ## A key that cannot be reported -/

/-- The object that repeats a key, inside of so many arrays. -/
def deepContent (n : Nat) : List UInt8 :=
  List.replicate n 0x5B ++ (asciiBytes "\x7b\"a\":1,\"a\":2\x7d" ++ List.replicate n 0x5D)

theorem decodeStrict_deepContent (n : Nat) :
    Text.Utf8.decodeStrict (deepContent n) = .ok (Json.deepText n) := by
  have hascii : ∀ b ∈ deepContent n, b < 0x80 := by
    have hobject : ∀ b ∈ asciiBytes "\x7b\"a\":1,\"a\":2\x7d", b < 0x80 := by decide +kernel
    simp only [deepContent, List.forall_mem_append]
    refine ⟨?_, hobject, ?_⟩ <;> intro b hb <;> rw [List.eq_of_mem_replicate hb] <;> decide
  rw [Text.Utf8.decodeStrict_of_ascii hascii, deepContent, List.map_append, List.map_append,
    List.map_replicate, List.map_replicate]
  rfl

theorem ofFile_deepText (n : Nat) : Text.ofFile (Json.deepText n) = Json.deepText n := by
  refine Text.ofFile_of_not_mem ?_
  have hobject : CodePoint.char '\r' ∉ Json.repeatingText.toList := by decide
  simp [Json.deepText, hobject, List.mem_replicate]

/-- **A repeated key is not always reported.** In an object that stands inside of two arrays less
than there is room for, a repeated key is found and cannot be reported, although plain reading
accepts the text. -/
theorem deepContent_refused :
    (∃ w, Json.read .lastWins (Json.deepText (Json.nestingLimit - 2)) = .ok w) ∧
    load (siteDisk (deepContent (Json.nestingLimit - 2))) (.ofText "/site") =
      .error (.nestedTooDeep .report) := by
  have hfile : filePath (siteDisk (deepContent (Json.nestingLimit - 2))) (.ofText "/site") =
      .ok (.ofText "/site/watchclass.json") := by
    decide +kernel
  have hlook : (siteDisk (deepContent (Json.nestingLimit - 2))).look
      (.ofText "/site/watchclass.json") =
        .ok (some (.file (deepContent (Json.nestingLimit - 2)) 0)) := by
    decide +kernel
  refine ⟨?_, ?_⟩
  · rw [Json.read_deepText _ (Nat.sub_le ..)]
    exact ⟨_, rfl⟩
  · have hread : Json.read .distinct (Json.deepText (Json.nestingLimit - 2)) =
        .error (.nestedTooDeep .report) := by
      rw [Json.read_deepText _ (Nat.sub_le ..)]
      rfl
    rw [load_eq_ofText hfile hlook (decodeStrict_deepContent _), ofFile_deepText]
    exact ofText_of_read_error (Json.writes_deepText _) hread

end UtilityCss.Config
