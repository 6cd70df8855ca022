import NodeFamily.Text.Octet

/-!
# Octets that may be no text

A file may hold any octets where a text is expected. `Raw` keeps them as they are: `Raw.text?` is
the text that they encode, if they encode one, and `Raw.shown` shows them as a text in any case.
-/

namespace NodeFamily.Text

/-- Octets between those of two texts are well formed when all of them together are. -/
theorem isValidUTF8_of_between {a b c : ByteArray} (ha : a.IsValidUTF8) (hc : c.IsValidUTF8)
    (h : (a ++ b ++ c).IsValidUTF8) : b.IsValidUTF8 := by
  let whole : String := ⟨a ++ b ++ c, h⟩
  -- Both ends of the octets are places between two characters of the whole text.
  let start : String.Pos.Raw := ⟨a.size⟩
  let stop : String.Pos.Raw := ⟨(a ++ b).size⟩
  have hsize : (a ++ b).size = a.size + b.size := ByteArray.size_append
  have hwhole : whole.utf8ByteSize = (a ++ b).size + c.size := ByteArray.size_append
  have hle : start ≤ stop := Nat.le.intro hsize.symm
  have hstop : stop ≤ whole.rawEndPos := Nat.le.intro hwhole.symm
  have hleft : whole.toByteArray.extract 0 start.byteIdx = a :=
    (congrArg (ByteArray.extract · 0 a.size) ByteArray.append_assoc).trans
      (ByteArray.extract_append_eq_left rfl)
  have hright : whole.toByteArray.extract stop.byteIdx whole.utf8ByteSize = c :=
    ByteArray.extract_append_eq_right rfl hwhole
  have hmiddle : whole.toByteArray.extract start.byteIdx stop.byteIdx = b :=
    ByteArray.extract_append_size_left.trans (ByteArray.extract_append_eq_right rfl hsize)
  have hbefore : start.IsValid whole := String.Pos.Raw.isValid_iff_isValidUTF8_extract_zero.2
    ⟨Nat.le_trans hle hstop, hleft.symm ▸ ha⟩
  have hafter : stop.IsValid whole :=
    String.Pos.Raw.isValid_iff_isValidUTF8_extract_utf8ByteSize.2 ⟨hstop, hright.symm ▸ hc⟩
  have hbetween :=
    (String.Pos.Raw.isValidUTF8_extract_iff start stop hle hstop).2 (.inr ⟨hbefore, hafter⟩)
  exact hmiddle ▸ hbetween

/-- Octets, which may encode a text. -/
structure Raw where
  /-- The octets. -/
  octets : ByteArray

namespace Raw

instance : DecidableEq Raw
  | ⟨⟨a⟩⟩, ⟨⟨b⟩⟩ => decidable_of_iff (a = b) (by simp)

instance : Repr Raw := ⟨fun r => reprPrec r.octets.data.toList⟩

/-- The octets of a text. -/
def ofString (s : String) : Raw := ⟨s.toByteArray⟩

instance : Coe String Raw := ⟨ofString⟩

instance : Append Raw := ⟨fun a b => ⟨a.octets ++ b.octets⟩⟩

/-- The text that octets encode, if they encode one. -/
def text? (r : Raw) : Option String := String.fromUTF8? r.octets

/-- Octets as a text, where each one that is not part of a character is replaced. -/
def shown (r : Raw) : String :=
  r.text?.getD (String.ofList (decodeOctets (r.octets.data.toList.map UInt8.toNat)))

instance : CoeOut Raw String := ⟨shown⟩

/-- The characters that octets are shown as. -/
def toList (r : Raw) : List Char := r.shown.toList

/-- Octets encode a text when they are those of it. -/
theorem text?_eq_some_iff {r : Raw} {s : String} : r.text? = some s ↔ r = ofString s := by
  obtain ⟨octets⟩ := r
  unfold text? String.fromUTF8? ofString
  constructor
  · intro h
    split at h
    · cases h
      rfl
    · cases h
  · intro h
    cases h
    exact dif_pos s.isValidUTF8

/-- The octets of a text encode it. -/
@[simp]
theorem text?_ofString (s : String) : (ofString s).text? = some s := text?_eq_some_iff.2 rfl

/-- Octets that encode a text are shown as it. -/
theorem shown_eq {r : Raw} {s : String} (h : r.text? = some s) : r.shown = s := by
  rw [shown, h, Option.getD_some]

/-- The octets of a text are shown as it. -/
@[simp]
theorem shown_ofString (s : String) : (ofString s).shown = s := shown_eq (text?_ofString s)

/-- The octets of a text are shown as its characters. -/
@[simp]
theorem toList_ofString (s : String) : (ofString s).toList = s.toList := by
  rw [toList, shown_ofString]

/-- The octets of two texts one after the other are those of both together. -/
theorem ofString_append (s t : String) : ofString (s ++ t) = ofString s ++ ofString t := rfl

/-- Octets encode a text when they are well formed. -/
theorem isSome_text?_iff {r : Raw} : r.text?.isSome = true ↔ r.octets.IsValidUTF8 := by
  unfold text? String.fromUTF8?
  split <;> simpa

/-- Octets between those of two texts encode a text exactly when all of them together do. -/
theorem text?_between (s t : String) (r : Raw) :
    (ofString s ++ r ++ ofString t).text? = r.text?.map fun m => s ++ m ++ t := by
  cases h : r.text? with
  | some m =>
    rw [text?_eq_some_iff.1 h, ← ofString_append, ← ofString_append, text?_ofString, Option.map_some]
  | none =>
    refine Option.not_isSome_iff_eq_none.1 fun hwhole => ?_
    have hvalid := isValidUTF8_of_between s.isValidUTF8 t.isValidUTF8 (isSome_text?_iff.1 hwhole)
    rw [← isSome_text?_iff, h] at hvalid
    exact absurd hvalid (by simp)

end Raw

end NodeFamily.Text
