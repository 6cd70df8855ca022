import NodeFamily.Proofs.Dump.JsonReading

/-!
# A printed schema is read back

A schema is written as a JSON document that holds this schema and nothing else (`read?_dump`): from
what stands in the document its variants, fields and marks are told again, in their order.

The document is written line by line, and its parts are moved to the right line by line. `Shows`
says what lines are as a part of a document: behind any indentation they are read as one value. It
goes from the items of a list and the members of an object to the whole (`Shows.array`,
`Shows.object`), since moving lines to the right only makes the indentation longer.
-/

namespace NodeFamily

open JsonValue (ReadsAs IsSpacing)

namespace Dump

/-! ## Lines -/

/-- The text of lines of which all but the first stand behind an indentation. -/
def joined (pad : List Char) (lines : List String) : List Char :=
  ('\n' :: pad).intercalate (lines.map String.toList)

/-- One line is its text. -/
@[simp]
theorem joined_singleton (pad : List Char) (line : String) : joined pad [line] = line.toList := by
  simp [joined]

/-- A line before others has a line break and the indentation behind it. -/
theorem joined_cons (pad : List Char) (line : String) {lines : List String} (h : lines ≠ []) :
    joined pad (line :: lines) = line.toList ++ '\n' :: (pad ++ joined pad lines) := by
  cases lines with
  | nil => exact absurd rfl h
  | cons next lines => simp [joined, List.intercalate_cons_cons]

/-- Lines before others have a line break and the indentation behind them. -/
theorem joined_append (pad : List Char) {lines others : List String} (h : lines ≠ [])
    (hothers : others ≠ []) :
    joined pad (lines ++ others) = joined pad lines ++ '\n' :: (pad ++ joined pad others) := by
  induction lines with
  | nil => exact absurd rfl h
  | cons line lines ih =>
    cases lines with
    | nil => rw [List.singleton_append, joined_cons pad line hothers, joined_singleton]
    | cons next lines =>
      have hne : next :: lines ≠ [] := List.cons_ne_nil _ _
      rw [List.cons_append, joined_cons pad line (List.append_ne_nil_of_left_ne_nil hne others),
        ih hne, joined_cons pad line hne]
      simp

/-- Lines that are moved to the right stand behind a longer indentation, the first one too. -/
theorem joined_indent (pad : List Char) {lines : List String} (h : lines ≠ []) :
    joined pad (indent lines) = ' ' :: ' ' :: joined (pad ++ [' ', ' ']) lines := by
  induction lines with
  | nil => exact absurd rfl h
  | cons line lines ih =>
    cases lines with
    | nil => simp [indent]
    | cons next lines =>
      have hne : next :: lines ≠ [] := List.cons_ne_nil _ _
      have hmap : indent (line :: next :: lines) = ("  " ++ line) :: indent (next :: lines) := rfl
      rw [hmap, joined_cons pad _ (by simp [indent]), ih hne, joined_cons _ line hne]
      simp

/-- A comma after lines leaves no fewer of them. -/
theorem withComma_ne_nil {lines : List String} (h : lines ≠ []) : withComma lines ≠ [] := by
  cases lines with
  | nil => exact absurd rfl h
  | cons line lines => cases lines <;> simp [withComma]

/-- A comma after lines stands behind the last one. -/
theorem joined_withComma (pad : List Char) {lines : List String} (h : lines ≠ []) :
    joined pad (withComma lines) = joined pad lines ++ [','] := by
  induction lines with
  | nil => exact absurd rfl h
  | cons line lines ih =>
    cases lines with
    | nil => simp [withComma]
    | cons next lines =>
      have hne : next :: lines ≠ [] := List.cons_ne_nil _ _
      rw [withComma, joined_cons pad line (withComma_ne_nil hne), ih hne, joined_cons pad line hne]
      · simp
      · exact hne

/-- The lines of some items are some lines. -/
theorem separated_ne_nil {items : List (List String)} (hne : items ≠ [])
    (h : ∀ item ∈ items, item ≠ []) : separated items ≠ [] := by
  cases items with
  | nil => exact absurd rfl hne
  | cons item items =>
    have hitem := h item List.mem_cons_self
    cases items with
    | nil => exact hitem
    | cons next items =>
      rw [separated]
      · exact List.append_ne_nil_of_left_ne_nil (withComma_ne_nil hitem) _
      · exact List.cons_ne_nil _ _

/-- Items stand with a comma, a line break and the indentation between them. -/
theorem joined_separated (pad : List Char) {items : List (List String)}
    (h : ∀ item ∈ items, item ≠ []) :
    joined pad (separated items) = (',' :: '\n' :: pad).intercalate (items.map (joined pad)) := by
  induction items with
  | nil => rfl
  | cons item items ih =>
    cases items with
    | nil => simp [separated]
    | cons next items =>
      rw [List.forall_mem_cons] at h
      have hrest := separated_ne_nil (List.cons_ne_nil _ _) h.2
      rw [separated, joined_append pad (withComma_ne_nil h.1) hrest, joined_withComma pad h.1,
        ih h.2]
      · simp [List.intercalate_cons_cons]
      · exact List.cons_ne_nil _ _

/-- Items between brackets stand on lines of their own, behind a longer indentation. -/
theorem joined_bracketed (pad : List Char) (opening closing : String) {items : List (List String)}
    (hne : items ≠ []) (h : ∀ item ∈ items, item ≠ []) :
    joined pad (bracketed opening closing items) = opening.toList ++
      ('\n' :: (pad ++ [' ', ' ']) ++ ((',' :: '\n' :: (pad ++ [' ', ' '])).intercalate
        (items.map (joined (pad ++ [' ', ' ']))) ++ ('\n' :: pad ++ closing.toList))) := by
  have hlines := separated_ne_nil hne h
  have hindent : indent (separated items) ≠ [] := by simpa [indent] using hlines
  rw [bracketed, if_neg (by simpa using hne), joined_cons pad opening (by simp),
    joined_append pad hindent (List.cons_ne_nil _ _), joined_indent pad hlines,
    joined_separated _ h, joined_singleton]
  simp

/-- The first line of a member has its key in front. -/
theorem joined_member (pad : List Char) (key : String) {lines : List String} (h : lines ≠ []) :
    joined pad (member key lines) = (string key).toList ++ ':' :: ' ' :: joined pad lines := by
  cases lines with
  | nil => exact absurd rfl h
  | cons line lines =>
    cases lines with
    | nil => simp [member]
    | cons next lines =>
      have hne : next :: lines ≠ [] := List.cons_ne_nil _ _
      rw [member, joined_cons pad _ hne, joined_cons pad line hne]
      simp

/-! ## Lines that are read -/

/-- Lines that are a value of a document: behind any indentation they are read as this value, when
values may stand `depth` deep inside one another. -/
structure Shows (depth : Nat) (lines : List String) (v : JsonValue) : Prop where
  /-- There is a line. -/
  ne_nil : lines ≠ []
  /-- The lines are read as the value. -/
  reads {pad : List Char} (hpad : IsSpacing pad) {fuel : Nat} (hfuel : depth ≤ fuel) :
    ReadsAs (JsonValue.value? fuel) (joined pad lines) v

/-- A text is a value. -/
theorem Shows.text (depth : Nat) (s : String) : Shows (depth + 1) [string s] (.text s) := by
  refine ⟨List.cons_ne_nil _ _, fun {pad} _ {fuel} hfuel rest => ?_⟩
  obtain ⟨cs, hstring, hread⟩ := JsonValue.text?_string s
  obtain ⟨fuel, rfl⟩ := Nat.exists_eq_add_of_le' (Nat.le_of_add_left_le hfuel)
  rw [joined_singleton, hstring, List.cons_append]
  change (JsonValue.text? (cs ++ rest)).map _ = _
  rw [hread, Option.map_some]

/-- A longer indentation is one too. -/
theorem isSpacing_deeper {pad : List Char} (hpad : IsSpacing pad) :
    IsSpacing (pad ++ [' ', ' ']) :=
  List.forall_mem_append.2 ⟨hpad, List.forall_mem_cons.2 ⟨rfl, List.forall_mem_singleton.2 rfl⟩⟩

/-- An indentation is white space with its line break too. -/
theorem isSpacing_break {pad : List Char} (hpad : IsSpacing pad) : IsSpacing ('\n' :: pad) :=
  List.forall_mem_cons.2 ⟨rfl, hpad⟩

/-- Items that are read behind a longer indentation are read from between brackets. -/
theorem enclosed?_bracketed {α : Type} {one : List Char → Option (α × List Char)} {closing : Char}
    (hcloses : JsonValue.Closes closing one) {pad : List Char} (hpad : IsSpacing pad)
    {items : List (List String)} {xs : List α}
    (h : List.Forall₂ (fun item x => item ≠ [] ∧ ReadsAs one (joined (pad ++ [' ', ' ']) item) x)
      items xs)
    (opening : String) : ∃ cs,
      joined pad (bracketed opening (String.singleton closing) items) = opening.toList ++ cs ∧
        ReadsAs (JsonValue.enclosed? one closing) cs xs := by
  obtain ⟨hne, hreads⟩ := (List.forall₂_and_left _ _).1 h
  by_cases hitems : items = []
  · obtain rfl := hitems
    cases h
    exact ⟨[closing], by simp [bracketed], JsonValue.enclosed?_closing hcloses⟩
  · refine ⟨_, joined_bracketed pad opening _ hitems hne, ?_⟩
    rw [String.toList_singleton]
    exact JsonValue.enclosed?_intercalate hcloses (isSpacing_break (isSpacing_deeper hpad))
      (isSpacing_break hpad) (by simpa using hitems) (List.forall₂_map_left_iff.2 hreads)

/-- There is a line with a bracket. -/
theorem bracketed_ne_nil (opening closing : String) (items : List (List String)) :
    bracketed opening closing items ≠ [] := by
  unfold bracketed
  split_ifs
  · exact List.cons_ne_nil _ _
  · exact List.cons_ne_nil _ _

/-- Values between square brackets are a list. -/
theorem Shows.array {depth : Nat} {items : List (List String)} {vs : List JsonValue}
    (h : List.Forall₂ (Shows depth) items vs) : Shows (depth + 1) (array items) (.list vs) := by
  refine ⟨bracketed_ne_nil _ _ _, fun {pad} hpad {fuel} hfuel rest => ?_⟩
  obtain ⟨fuel, rfl⟩ := Nat.exists_eq_add_of_le' (Nat.le_of_add_left_le hfuel)
  have hvalues : List.Forall₂ (fun item v => item ≠ [] ∧
      ReadsAs (JsonValue.value? fuel) (joined (pad ++ [' ', ' ']) item) v) items vs :=
    h.imp fun _ _ hv =>
      ⟨hv.ne_nil, hv.reads (isSpacing_deeper hpad) (Nat.le_of_succ_le_succ hfuel)⟩
  obtain ⟨cs, hjoined, hread⟩ :=
    enclosed?_bracketed (JsonValue.closes_value? fuel) hpad hvalues "["
  have hlines : joined pad (Dump.array items) = '[' :: cs := hjoined
  rw [hlines]
  change (JsonValue.enclosed? (JsonValue.value? fuel) ']' (cs ++ rest)).map _ = _
  rw [hread, Option.map_some]

/-- Members between braces are an object. -/
theorem Shows.object {depth : Nat} {members : List (String × List String)}
    {vs : List (String × JsonValue)}
    (h : List.Forall₂ (fun m v => m.1 = v.1 ∧ Shows depth m.2 v.2) members vs) :
    Shows (depth + 1) (object members) (.object vs) := by
  refine ⟨bracketed_ne_nil _ _ _, fun {pad} hpad {fuel} hfuel rest => ?_⟩
  obtain ⟨fuel, rfl⟩ := Nat.exists_eq_add_of_le' (Nat.le_of_add_left_le hfuel)
  have hmembers : List.Forall₂ (fun item v => item ≠ [] ∧ ReadsAs
      (JsonValue.member? (JsonValue.value? fuel)) (joined (pad ++ [' ', ' ']) item) v)
      (members.map fun m => member m.1 m.2) vs := by
    rw [List.forall₂_map_left_iff]
    refine h.imp ?_
    rintro ⟨key, lines⟩ ⟨_, v⟩ ⟨rfl, hv⟩
    have hdeeper := isSpacing_deeper hpad
    have hvalue := hv.reads hdeeper (Nat.le_of_succ_le_succ hfuel)
    -- The space behind the colon is passed over.
    have hspaced := hvalue.spaced (JsonValue.skips_value? fuel) 
      (List.forall_mem_singleton.2 (rfl : Json.isSpace ' ' = true))
    have hread := JsonValue.member?_string hspaced key
    refine ⟨?_, ?_⟩
    · cases lines with
      | nil => exact absurd rfl hv.ne_nil
      | cons line lines => exact List.cons_ne_nil _ _
    · rw [joined_member _ _ hv.ne_nil]
      exact hread
  obtain ⟨cs, hjoined, hread⟩ :=
    enclosed?_bracketed (JsonValue.closes_member? _) hpad hmembers "\x7b"
  have hlines : joined pad (Dump.object members) = '\x7b' :: cs := hjoined
  rw [hlines]
  change (JsonValue.enclosed? (JsonValue.member? (JsonValue.value? fuel)) '\x7d' (cs ++ rest)).map _
    = _
  rw [hread, Option.map_some]

end Dump

/-! ## Schemas -/

namespace Field

/-- A field as a value. -/
def json (f : Field) : JsonValue :=
  .object [("type", .text f.type), ("name", .text f.name), ("kind", .text f.kind.text)]

/-- The field that a value is. -/
def ofJson? (v : JsonValue) : Option Field := do
  let type ← (← v.get? "type").asText?
  let name ← (← v.get? "name").asText?
  let kind ← Kind.ofText? (← (← v.get? "kind").asText?)
  return ⟨type, name, kind⟩

/-- A marked field is told from its value. -/
theorem ofJson?_json_classify (f : Field) : ofJson? f.classify.json = some f.classify := by
  have hkind : Kind.ofText? f.classify.kind.text = some f.classify.kind := by
    unfold classify
    split_ifs <;> rfl
  change (Kind.ofText? f.classify.kind.text).bind _ = _
  rw [hkind]
  rfl

/-- The lines of a field are its value. -/
theorem shows (f : Field) : Dump.Shows 2 (Dump.field f) f.json :=
  Dump.Shows.object <| .cons ⟨rfl, .text 0 _⟩ <| .cons ⟨rfl, .text 0 _⟩ <|
    .cons ⟨rfl, .text 0 _⟩ .nil

end Field

namespace Variant

/-- A variant as a value. -/
def json (v : Variant) : JsonValue :=
  .object [("name", .text v.name), ("fields", .list (v.fields.map Field.json))]

/-- The variant that a value is. -/
def ofJson? (v : JsonValue) : Option Variant := do
  let name ← (← v.get? "name").asText?
  let fields ← (← v.get? "fields").asList?
  return ⟨name, ← fields.mapM Field.ofJson?⟩

/-- A marked variant is told from its value. -/
theorem ofJson?_json_classify (v : Variant) : ofJson? v.classify.json = some v.classify := by
  have hfields : (v.classify.fields.map Field.json).mapM Field.ofJson? =
      some v.classify.fields := by
    have hread : (Field.ofJson? ∘ Field.json ∘ Field.classify) = fun f => pure f.classify :=
      funext Field.ofJson?_json_classify
    rw [classify, List.map_map, List.mapM_map, hread, List.mapM_pure]
    rfl
  change ((v.classify.fields.map Field.json).mapM Field.ofJson?).bind _ = _
  rw [hfields]
  rfl

/-- The lines of a variant are its value. -/
theorem shows (v : Variant) : Dump.Shows 4 (Dump.variant v) v.json := by
  have hfields : List.Forall₂ (Dump.Shows 2) (v.fields.map Dump.field)
      (v.fields.map Field.json) := by
    rw [List.forall₂_map_left_iff, List.forall₂_map_right_iff, List.forall₂_same]
    exact fun f _ => f.shows
  exact Dump.Shows.object <| .cons ⟨rfl, .text 2 _⟩ <| .cons ⟨rfl, .array hfields⟩ .nil

end Variant

namespace Schema

/-- A schema as a value. -/
def json (s : Schema) : JsonValue :=
  .object [("variants", .list (s.variants.map Variant.json))]

/-- The schema that a value is. -/
def ofJson? (v : JsonValue) : Option Schema := do
  let variants ← (← v.get? "variants").asList?
  return ⟨← variants.mapM Variant.ofJson?⟩

/-- The schema that a JSON document holds. -/
def read? (document : String) : Option Schema := (JsonValue.read? document).bind ofJson?

/-- A marked schema is told from its value. -/
theorem ofJson?_json_classify (s : Schema) : ofJson? s.classify.json = some s.classify := by
  have hvariants : (s.classify.variants.map Variant.json).mapM Variant.ofJson? =
      some s.classify.variants := by
    have hread : (Variant.ofJson? ∘ Variant.json ∘ Variant.classify) = fun v => pure v.classify :=
      funext Variant.ofJson?_json_classify
    rw [classify, List.map_map, List.mapM_map, hread, List.mapM_pure]
    rfl
  change ((s.classify.variants.map Variant.json).mapM Variant.ofJson?).bind _ = _
  rw [hvariants]
  rfl

/-- The lines of a schema are its value. -/
theorem shows (s : Schema) : Dump.Shows 6 (Dump.schema s) s.json := by
  have hvariants : List.Forall₂ (Dump.Shows 4) (s.variants.map Dump.variant)
      (s.variants.map Variant.json) := by
    rw [List.forall₂_map_left_iff, List.forall₂_map_right_iff, List.forall₂_same]
    exact fun v _ => v.shows
  exact Dump.Shows.object <| .cons ⟨rfl, .array hvariants⟩ .nil

/-- A printed schema is read as its value. -/
theorem jsonValue_read?_dump (s : Schema) : JsonValue.read? s.dump = some s.json := by
  have hdump : s.dump.toList = Dump.joined [] (Dump.schema s) ++ ['\n'] := by
    simp [dump, Dump.joined]
  have hread : ReadsAs (JsonValue.value? Json.nestingLimit.toNat)
      (Dump.joined [] (Dump.schema s)) s.json :=
    s.shows.reads (fun _ h => absurd h List.not_mem_nil) (by decide)
  rw [JsonValue.read?, hdump, hread]
  rfl

/-- What is printed for a marked schema is read back as this schema. -/
theorem read?_dump (s : Schema) : read? s.classify.dump = some s.classify := by
  rw [read?, jsonValue_read?_dump, Option.bind_some, ofJson?_json_classify]

end Schema

end NodeFamily
