import ComponentBuilder.Proofs.Markup.AttributeText
import ComponentBuilder.Proofs.Markup.Grammar

/-!
# Counting what a tag keeps

Reading a tag and writing it again may drop blanks, quotes, slashes and repeated attributes, but it
makes up no text of its own.  A tally counts certain characters, each possibly together with the next
one, and never those that the writer adds.  No tally of a tag's canonical text exceeds that of the tag.
-/

namespace ComponentBuilder.Markup

open Text Scan AttributeList

/-- The characters that the writer puts between the parts of a tag. -/
def isGlue (c : Char) : Bool :=
  c == ' ' || c == '=' || c == '/' || c == '<' || c == '>' || isTagQuote c

/-- What a character counts, given the character after it. -/
structure Weight where
  of : Char → Option Char → Nat
  least : ∀ c next, of c none ≤ of c next
  beforeGlue : ∀ c d, isGlue d = true → of c (some d) = of c none
  angle : ∀ next, of '>' next = of '>' none
  glue : ∀ c next, isGlue c = true → c ≠ '<' → c ≠ '>' → of c next = 0

/-- The sum of what the characters of a text count. -/
def tally (w : Weight) : List Char → Nat
  | [] => 0
  | c :: rest => w.of c rest.head? + tally w rest

namespace Weight

variable (w : Weight)

theorem tally_append_le (first second : List Char) :
    tally w first + tally w second ≤ tally w (first ++ second) := by
  induction first with
  | nil => simp [tally]
  | cons c first ih =>
      have hc : w.of c first.head? ≤ w.of c (first ++ second).head? := by
        cases first with
        | nil => exact w.least c _
        | cons d first => exact Nat.le_refl _
      simp only [List.cons_append, tally]
      omega

theorem tally_le_append_left (first second : List Char) :
    tally w second ≤ tally w (first ++ second) := by
  have := w.tally_append_le first second
  omega

theorem tally_le_append_right (first second : List Char) :
    tally w first ≤ tally w (first ++ second) := by
  have := w.tally_append_le first second
  omega

theorem tally_append_glue {d : Char} (hd : isGlue d = true) (first second : List Char) :
    tally w (first ++ d :: second) = tally w first + tally w (d :: second) := by
  induction first with
  | nil => simp [tally]
  | cons c first ih =>
      have hc : w.of c (first ++ d :: second).head? = w.of c first.head? := by
        cases first with
        | nil => exact w.beforeGlue c d hd
        | cons e first => rfl
      simp only [List.cons_append, tally, hc] at ih ⊢
      omega

theorem tally_cons_glue {d : Char} (hd : isGlue d = true) (hopen : d ≠ '<') (hclose : d ≠ '>')
    (text : List Char) : tally w (d :: text) = tally w text := by
  rw [tally, w.glue d _ hd hopen hclose, Nat.zero_add]

theorem tally_cons_angle (text : List Char) :
    tally w ('>' :: text) = w.of '>' none + tally w text := by
  rw [tally, w.angle]

/-- Texts that begin alike do as much for the text in front of them. -/
theorem tally_append_congr {second second' : List Char} (h : second.head? = second'.head?)
    (first : List Char) :
    tally w (first ++ second) + tally w second' = tally w (first ++ second') + tally w second := by
  induction first with
  | nil => simp [Nat.add_comm]
  | cons c first ih =>
      have hc : (first ++ second).head? = (first ++ second').head? := by
        cases first <;> simp [h]
      simp only [List.cons_append, tally, hc]
      omega

/-! ## Attributes -/

theorem tally_quoteValue (value : List Char) : tally w (quoteValue value) = tally w value := by
  have hquoted (quote : Char) (hglue : isGlue quote = true) (hopen : quote ≠ '<') (hclose : quote ≠ '>') :
      tally w (quote :: (value ++ [quote])) = tally w value := by
    rw [w.tally_cons_glue hglue hopen hclose, w.tally_append_glue hglue,
      w.tally_cons_glue hglue hopen hclose]
    simp [tally]
  unfold quoteValue
  split
  · exact hquoted '\'' (by decide) (by decide) (by decide)
  · exact hquoted '"' (by decide) (by decide) (by decide)

theorem tally_equals (name value : List Char) :
    tally w (name ++ '=' :: value) = tally w name + tally w value := by
  rw [w.tally_append_glue (by decide), w.tally_cons_glue (by decide) (by decide) (by decide)]

theorem tally_valueItem {name : String} {text after : List Char} {entry : String × AttributeValue}
    (h : ValueItem name text entry after) :
    tally w (renderAttribute entry.1 entry.2) + tally w after ≤
      tally w name.toList + tally w text := by
  cases h with
  | @quoted gap value after quote hgap hquote hvalue =>
      have hvalue := w.tally_append_le value (quote :: after)
      have hquote := w.tally_le_append_left [quote] after
      have hgap := w.tally_le_append_left (gap ++ [quote]) (value ++ quote :: after)
      simp only [List.append_assoc, List.singleton_append] at hgap hquote
      simp only [renderAttribute, tally_equals, tally_quoteValue, String.toList_ofList]
      omega
  | @braced gap source after hgap hsource =>
      have hsource := w.tally_append_le source after
      have hgap := w.tally_le_append_left gap (source ++ after)
      simp only [renderAttribute, tally_equals, String.toList_ofList]
      omega
  | @unquoted gap value after c hgap =>
      have hvalue := w.tally_append_le (c :: value) after
      have hgap := w.tally_le_append_left gap (c :: value ++ after)
      simp only [renderAttribute, tally_equals, tally_quoteValue, String.toList_ofList]
      omega

theorem tally_item {text after : List Char} {entry : String × AttributeValue}
    (h : Item text entry after) :
    tally w (renderAttribute entry.1 entry.2) + tally w after ≤ tally w text := by
  cases h with
  | spread | token | name =>
      simp only [renderAttribute, String.toList_ofList]
      exact w.tally_append_le _ _
  | @valued name gap value after entry hname hgap hvalue =>
      have hitem := w.tally_valueItem hvalue
      have hfirst := w.tally_append_le name (gap ++ '=' :: value)
      have hgap := w.tally_le_append_left (gap ++ ['=']) value
      simp only [List.append_assoc, List.singleton_append] at hgap
      rw [String.toList_ofList] at hitem
      omega

/-- What the entries of a list count when each is written by itself. -/
def entriesTally (entries : List (String × AttributeValue)) : Nat :=
  (entries.map fun entry => tally w (renderAttribute entry.1 entry.2)).sum

theorem entriesTally_items {text : List Char} {entries : List (String × AttributeValue)}
    (h : Items text entries) : w.entriesTally entries ≤ tally w text := by
  induction h with
  | nil => simp [entriesTally]
  | @cons blanks text after entry entries hblanks hitem hrest ih =>
      have hitem := w.tally_item hitem
      have hblanks := w.tally_le_append_left blanks text
      simp only [entriesTally, List.map_cons, List.sum_cons] at ih ⊢
      omega

theorem entriesTally_assign (key : String) (value : AttributeValue)
    (entries : List (String × AttributeValue)) :
    w.entriesTally (assign key value entries) ≤
      w.entriesTally entries + tally w (renderAttribute key value) := by
  induction entries with
  | nil => simp [assign, entriesTally]
  | cons entry entries ih =>
      obtain ⟨k, v⟩ := entry
      by_cases hkey : k = key
      · subst hkey
        simp only [assign, if_true, entriesTally, List.map_cons, List.sum_cons]
        omega
      · simp only [assign, hkey, if_false, entriesTally, List.map_cons, List.sum_cons] at ih ⊢
        omega

theorem entriesTally_setAll (attributes : Attributes) (entries : List (String × AttributeValue)) :
    w.entriesTally (setAll attributes entries).entries ≤
      w.entriesTally attributes.entries + w.entriesTally entries := by
  induction entries generalizing attributes with
  | nil => simp [setAll, entriesTally]
  | cons entry entries ih =>
      have hrest := ih (attributes.set entry.1 entry.2)
      have hset := w.entriesTally_assign entry.1 entry.2 attributes.entries
      simp only [setAll, List.foldl_cons] at hrest ⊢
      simp only [Keyed.set] at hrest hset ⊢
      have hcons : w.entriesTally (entry :: entries) =
          tally w (renderAttribute entry.1 entry.2) + w.entriesTally entries := by
        simp [entriesTally]
      omega

theorem tally_append_renderEntries (text : List Char) (entries : List (String × AttributeValue)) :
    tally w (text ++ renderEntries entries) = tally w text + tally w (renderEntries entries) := by
  cases entries with
  | nil => simp [renderEntries, tally]
  | cons entry entries =>
      rw [renderEntries, List.flatMap_cons, List.cons_append]
      exact w.tally_append_glue (by decide) _ _

theorem tally_renderEntries (entries : List (String × AttributeValue)) :
    tally w (renderEntries entries) = w.entriesTally entries := by
  induction entries with
  | nil => rfl
  | cons entry entries ih =>
      have hcons : renderEntries (entry :: entries) =
          ' ' :: (renderAttribute entry.1 entry.2 ++ renderEntries entries) := by
        simp [renderEntries]
      rw [hcons, w.tally_cons_glue (by decide) (by decide) (by decide),
        w.tally_append_renderEntries, ih]
      simp [entriesTally]

/-- The canonical name and attributes of a tag count no more than the tag. -/
theorem tally_openingTag {content : List Char} {tag : String} {attributes : Attributes}
    {selfClosing : Bool} (h : Token.OpeningTag content tag attributes selfClosing) :
    tally w (tag.toList ++ renderAttributes attributes) ≤ tally w content := by
  have hread {text name rest : List Char} (hname : Token.LeadingName text name rest)
      (hattributes : AttributeList.read rest = .ok attributes) :
      tally w ((String.ofList name).toList ++ renderAttributes attributes) ≤ tally w text := by
    obtain ⟨entries, hitems, rfl⟩ := read_eq_ok_iff.1 hattributes
    have hrest := w.entriesTally_items hitems
    have hset := w.entriesTally_setAll .empty entries
    have htext : text = name ++ rest := by
      cases hname <;> rfl
    have hsplit := w.tally_append_le name rest
    have hwritten : tally w (name ++ renderAttributes (setAll .empty entries)) =
        tally w name + w.entriesTally (setAll .empty entries).entries := by
      rw [← tally_renderEntries]
      exact w.tally_append_renderEntries name _
    rw [String.toList_ofList, hwritten, htext]
    have hempty : w.entriesTally (Keyed.empty : Attributes).entries = 0 := rfl
    omega
  cases h with
  | @selfClosing body name rest _ hslash hname hattributes =>
      have hbody := hread hname hattributes
      obtain ⟨blanks, -, hcontent⟩ := exists_trimEnd_append_blanks content
      rw [hcontent, hslash, List.append_assoc]
      exact Nat.le_trans hbody (w.tally_le_append_right _ _)
  | pair _ hname hattributes => exact hread hname hattributes

end Weight

end ComponentBuilder.Markup
