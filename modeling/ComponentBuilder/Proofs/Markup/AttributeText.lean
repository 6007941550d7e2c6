import ComponentBuilder.Markup.Printer
import ComponentBuilder.Proofs.Markup.AttributeItem

/-!
# Written attributes

Attributes whose names are names, and whose values a quote or a pair of braces can hold, are written as
items of the grammar of attribute lists.  Reading their text gives them back in the same order, and no
scan for the end of a tag stops inside of it.
-/

namespace ComponentBuilder.Markup.AttributeList

open Text Scan

/-- Attributes are what results from setting their entries in order. -/
theorem setAll_entries (attributes : Attributes) : setAll .empty attributes.entries = attributes :=
  attributes.ofList_entries

/-! ## Well-formed attributes -/

/-- An attribute that its text stands for. -/
inductive WellFormedAttribute : String → AttributeValue → Prop
  | flag {name : String} (hname : IsName name.toList) : WellFormedAttribute name (.flag true)
  | text {name value : String} (hname : IsName name.toList)
      (hquotes : ¬('"' ∈ value.toList ∧ '\'' ∈ value.toList)) : WellFormedAttribute name (.text value)
  | expression {name source : String} (hname : IsName name.toList)
      (hsource : findExpressionEnd source 0 = .ok (source.toList.length - 1)) :
      WellFormedAttribute name (.expression source)
  | spread {source : String}
      (hsource : findExpressionEnd source 0 = .ok (source.toList.length - 1)) :
      WellFormedAttribute source (.flag true)

/-- A text whose first expression ends where the text ends is one expression. -/
theorem isExpression_of_findExpressionEnd {source : String}
    (h : findExpressionEnd source 0 = .ok (source.toList.length - 1)) :
    IsExpression source.toList := by
  obtain ⟨found, rest, hfound, hsource, hlength⟩ := findExpressionEnd_eq_ok_iff.1 h
  obtain ⟨inside, hcons⟩ := hfound.eq_cons
  have hrest : rest.length = 0 := by
    rw [hsource, List.length_append] at hlength
    have hpos : 0 < found.length := by simp [hcons]
    omega
  rwa [hsource, List.length_eq_zero_iff.1 hrest, List.append_nil]

theorem quoteValue_eq {value : List Char} (h : ¬('"' ∈ value ∧ '\'' ∈ value)) :
    ∃ quote, isTagQuote quote = true ∧ quote ∉ value ∧
      quoteValue value = quote :: (value ++ [quote]) := by
  unfold quoteValue
  by_cases hdouble : '"' ∈ value
  · have hsingle : '\'' ∉ value := fun hsingle => h ⟨hdouble, hsingle⟩
    exact ⟨'\'', rfl, hsingle, by simp [hdouble, hsingle]⟩
  · exact ⟨'"', rfl, hdouble, by simp [hdouble]⟩

/-- The text of a well-formed attribute is an item, when a blank or nothing comes after it. -/
theorem WellFormedAttribute.item {name : String} {value : AttributeValue}
    (h : WellFormedAttribute name value) {after : List Char}
    (hafter : ∀ c, after.head? = some c → isBlank c = true)
    (hequals : (trimStart after).head? ≠ some '=') :
    Item (renderAttribute name value ++ after) (name, value) after := by
  cases h with
  | flag hname =>
      have hstops : Stops isNameChar after :=
        fun c hc => isNameChar_eq_false_of_isBlank (hafter c hc)
      simpa [renderAttribute] using Item.name hname hstops hequals
  | @text value hname hquotes =>
      obtain ⟨quote, hquote, hvalue, heq⟩ := quoteValue_eq hquotes
      have hvalueItem := @ValueItem.quoted (String.ofList name.toList) [] value.toList after quote (by simp)
        hquote hvalue
      have hitem := @Item.valued name.toList [] _ _ _ hname (by simp) hvalueItem
      simpa [renderAttribute, heq] using hitem
  | @expression source hname hsource =>
      have hvalueItem := @ValueItem.braced (String.ofList name.toList) [] source.toList after (by simp)
        (isExpression_of_findExpressionEnd hsource)
      have hitem := @Item.valued name.toList [] _ _ _ hname (by simp) hvalueItem
      simpa [renderAttribute] using hitem
  | spread hsource =>
      have hitem := @Item.spread name.toList after (isExpression_of_findExpressionEnd hsource)
      simpa [renderAttribute] using hitem

/-- The text of a well-formed attribute begins with neither a blank nor an equals sign. -/
theorem WellFormedAttribute.head {name : String} {value : AttributeValue}
    (h : WellFormedAttribute name value) :
    ∃ c rest, renderAttribute name value = c :: rest ∧ isBlank c = false ∧ c ≠ '=' := by
  cases h with
  | flag hname =>
      obtain ⟨c, rest, hcons, hc⟩ := hname.exists_cons
      exact ⟨c, rest, hcons, isBlank_eq_false_of_isNameChar hc, ne_of_passes hc (by decide)⟩
  | text hname | expression hname =>
      obtain ⟨c, rest, hcons, hc⟩ := hname.exists_cons
      exact ⟨c, _, by rw [renderAttribute, hcons]; rfl, isBlank_eq_false_of_isNameChar hc,
        ne_of_passes hc (by decide)⟩
  | spread hsource =>
      obtain ⟨inside, hcons⟩ := (isExpression_of_findExpressionEnd hsource).eq_cons
      exact ⟨_, _, by rw [renderAttribute, hcons], by decide, by decide⟩

/-- The text of some entries, each with a blank in front. -/
def renderEntries (entries : List (String × AttributeValue)) : List Char :=
  entries.flatMap fun entry => ' ' :: renderAttribute entry.1 entry.2

theorem items_renderEntries {entries : List (String × AttributeValue)}
    (h : ∀ entry ∈ entries, WellFormedAttribute entry.1 entry.2) {blanks : List Char}
    (hblanks : ∀ c ∈ blanks, isBlank c = true) : Items (renderEntries entries ++ blanks) entries := by
  induction entries with
  | nil => exact .nil hblanks
  | cons entry entries ih =>
      have hrest := ih fun other hother => h other (by simp [hother])
      have hafter : ∀ c, (renderEntries entries ++ blanks).head? = some c → isBlank c = true := by
        intro c hc
        cases entries with
        | nil => exact hblanks c (List.mem_of_head? hc)
        | cons other entries =>
            obtain rfl : ' ' = c := by simpa [renderEntries] using hc
            decide
      have hequals : (trimStart (renderEntries entries ++ blanks)).head? ≠ some '=' := by
        cases entries with
        | nil =>
            have hnone := trimStart_append_of_stops hblanks (stops_nil isBlank)
            rw [List.append_nil] at hnone
            simp [renderEntries, hnone]
        | cons other entries =>
            obtain ⟨c, rest, hcons, hblank, hne⟩ := (h other (by simp)).head
            have hspace : isBlank ' ' = true := by decide
            simp [renderEntries, hcons, trimStart, hspace, hblank, hne]
      have hitem := (h entry (by simp)).item hafter hequals
      have hspace : ∀ c ∈ [' '], isBlank c = true := by decide
      simpa [renderEntries] using Items.cons hspace hitem hrest

/-- Well-formed attributes are read from their text, in the same order. -/
theorem read_renderAttributes {attributes : Attributes}
    (h : ∀ entry ∈ attributes.entries, WellFormedAttribute entry.1 entry.2) {blanks : List Char}
    (hblanks : ∀ c ∈ blanks, isBlank c = true) :
    read (renderAttributes attributes ++ blanks) = .ok attributes :=
  read_eq_ok_iff.2 ⟨attributes.entries, items_renderEntries h hblanks, (setAll_entries attributes).symm⟩

/-! ## Written attributes inside a tag -/

theorem tagInside_append {first second : List Char} (hfirst : TagInside first)
    (hsecond : TagInside second) : TagInside (first ++ second) := by
  induction hfirst with
  | nil => exact hsecond
  | plain hquote hbrace hangle _ ih => exact .plain hquote hbrace hangle ih
  | quoted hquote hvalue _ ih => simpa using TagInside.quoted hquote hvalue ih
  | braced hsource _ ih => simpa using TagInside.braced hsource ih

theorem tagInside_of_isName {name : List Char} (h : IsName name) : TagInside name :=
  tagInside_of_class (by decide) (by decide) (by decide) (by decide) h.2

theorem WellFormedAttribute.tagInside {name : String} {value : AttributeValue}
    (h : WellFormedAttribute name value) : TagInside (renderAttribute name value) := by
  have hexpression {source : String}
      (hsource : findExpressionEnd source 0 = .ok (source.toList.length - 1)) :
      TagInside source.toList := by
    have hbraced := TagInside.braced (isExpression_of_findExpressionEnd hsource) .nil
    rwa [List.append_nil] at hbraced
  cases h with
  | flag hname => exact tagInside_of_isName hname
  | text hname hquotes =>
      obtain ⟨quote, hquote, hvalue, heq⟩ := quoteValue_eq hquotes
      rw [renderAttribute, heq]
      exact tagInside_append (tagInside_of_isName hname)
        (.plain (by decide) (by decide) (by decide) (.quoted hquote hvalue .nil))
  | expression hname hsource =>
      exact tagInside_append (tagInside_of_isName hname)
        (.plain (by decide) (by decide) (by decide) (hexpression hsource))
  | spread hsource => exact hexpression hsource

/-- The text of a well-formed attribute ends in neither a blank nor a slash. -/
theorem WellFormedAttribute.getLast? {name : String} {value : AttributeValue}
    (h : WellFormedAttribute name value) :
    ∃ c, (renderAttribute name value).getLast? = some c ∧ isBlank c = false ∧ c ≠ '/' := by
  cases h with
  | flag hname =>
      obtain ⟨c, hc⟩ := List.getLast?_isSome.2 hname.1 |> Option.isSome_iff_exists.1
      have hchar : isNameChar c = true := hname.2 c (List.mem_of_getLast? hc)
      exact ⟨c, hc, isBlank_eq_false_of_isNameChar hchar, ne_of_passes hchar (by decide)⟩
  | text hname hquotes =>
      obtain ⟨quote, hquote, hvalue, heq⟩ := quoteValue_eq hquotes
      refine ⟨quote, by simp [renderAttribute, heq, List.getLast?_cons],
        eq_false_of_isTagQuote (by decide) (by decide) hquote, ne_of_passes hquote (by decide)⟩
  | @expression source hname hsource =>
      have hlast := (isExpression_of_findExpressionEnd hsource).getLast?_eq
      refine ⟨'\x7d', ?_, by decide⟩
      simp [renderAttribute, List.getLast?_append, List.getLast?_cons, hlast]
  | spread hsource =>
      exact ⟨'\x7d', (isExpression_of_findExpressionEnd hsource).getLast?_eq, by decide⟩

theorem tagInside_renderEntries {entries : List (String × AttributeValue)}
    (h : ∀ entry ∈ entries, WellFormedAttribute entry.1 entry.2) :
    TagInside (renderEntries entries) := by
  induction entries with
  | nil => exact .nil
  | cons entry entries ih =>
      have hrest := ih fun other hother => h other (by simp [hother])
      have hall := tagInside_append (h entry (by simp)).tagInside hrest
      simpa [renderEntries] using TagInside.plain (by decide) (by decide) (by decide) hall

end ComponentBuilder.Markup.AttributeList
