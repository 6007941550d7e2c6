import ComponentBuilder.Proofs.Markup.AttributeText
import ComponentBuilder.Proofs.Markup.Readable

/-!
# Reading what was written

A tree is well formed when its types are names, its attributes can be written in quotes or braces, and
its texts are plain.  The canonical text of a well-formed tree is read as the same tree, with the
attributes of every element in the same order.
-/

namespace ComponentBuilder.Markup

open Text Scan AttributeList

/-- A name of an element's type. -/
def IsTypeName (name : List Char) : Prop :=
  ∃ c rest, name = c :: rest ∧ isNameStart c = true ∧ ∀ d ∈ rest, Token.isTagChar d = true

/-- What an element must satisfy by itself to be well formed. -/
structure Node.WellFormedHere (node : Node) : Prop where
  type : IsTypeName node.tag.toList ∨ (node.tag = "" ∧ node.attributes.entries = [])
  attributes : ∀ entry ∈ node.attributes.entries, WellFormedAttribute entry.1 entry.2
  texts : PlainTexts node.children

/-- A tree whose elements are all well formed. -/
def Node.WellFormed (root : Node) : Prop :=
  ∀ node ∈ root.descendants, node.WellFormedHere

namespace Node.WellFormedHere

variable {node : Node}

theorem isTagChar (h : node.WellFormedHere) : ∀ c ∈ node.tag.toList, Token.isTagChar c = true := by
  rcases h.type with ⟨c, rest, hcons, hstart, hrest⟩ | ⟨htag, -⟩
  · rw [hcons]
    intro d hd
    rcases List.mem_cons.1 hd with rfl | hd
    · exact Token.isTagChar_of_isNameStart hstart
    · exact hrest d hd
  · simp [htag]

/-- The type is the whole name in front of the attributes. -/
theorem leadingName (h : node.WellFormedHere) {blanks : List Char}
    (hblanks : ∀ c ∈ blanks, isBlank c = true)
    (hempty : node.tag = "" → blanks = []) :
    Token.LeadingName (node.tag.toList ++ (renderAttributes node.attributes ++ blanks)) node.tag.toList
      (renderAttributes node.attributes ++ blanks) := by
  have hstops : Stops Token.isTagChar (renderAttributes node.attributes ++ blanks) := by
    intro c hc
    have hblank : isBlank c = true := by
      unfold renderAttributes at hc
      cases hentries : node.attributes.entries with
      | nil =>
          rw [hentries] at hc
          exact hblanks c (List.mem_of_head? hc)
      | cons entry entries =>
          rw [hentries] at hc
          obtain rfl : ' ' = c := by simpa using hc
          decide
    by_contra hchar
    rw [Bool.not_eq_false] at hchar
    rw [Token.isBlank_eq_false_of_isTagChar hchar] at hblank
    simp at hblank
  rcases h.type with ⟨c, rest, hcons, hstart, hrest⟩ | ⟨htag, hnone⟩
  · rw [hcons]
    exact .some hstart hrest hstops
  · have hattributes : renderAttributes node.attributes = [] := by
      rw [renderAttributes, hnone]
      rfl
    rw [hattributes, hempty htag, htag]
    exact .none (stops_nil _)

/-- The attributes' text ends in neither a blank nor a slash. -/
theorem getLast?_content (h : node.WellFormedHere) :
    ∀ c, (node.tag.toList ++ renderAttributes node.attributes).getLast? = some c →
      isBlank c = false ∧ c ≠ '/' := by
  intro c hc
  rw [List.getLast?_append, renderAttributes] at hc
  rcases List.eq_nil_or_concat node.attributes.entries with hnone | ⟨front, entry, hentries⟩
  · rw [hnone] at hc
    have hmem : c ∈ node.tag.toList := List.mem_of_getLast? (by simpa using hc)
    have hchar := h.isTagChar c hmem
    exact ⟨Token.isBlank_eq_false_of_isTagChar hchar, ne_of_passes hchar (by decide)⟩
  · obtain ⟨d, hd, hgood⟩ := (h.attributes entry (by simp [hentries])).getLast?
    have hlast : c = d := by
      simpa [hentries, List.getLast?_append, List.getLast?_cons, hd] using hc.symm
    exact hlast ▸ hgood

/-- The opening tag of a well-formed element is empty or begins with a name. -/
theorem tagContent_cases (h : node.WellFormedHere) :
    node.tagContent = [] ∨ ∃ c rest, node.tagContent = c :: rest ∧ isNameStart c = true := by
  rcases h.type with ⟨c, rest, hcons, hstart, -⟩ | ⟨htag, hnone⟩
  · exact .inr ⟨c, _, by rw [Node.tagContent, hcons]; rfl, hstart⟩
  · left
    simp [Node.tagContent, renderAttributes, Node.closesItself, hnone, htag]

theorem opensTag_tagContent (h : node.WellFormedHere) : opensTag (node.tagContent ++ ['>']) = true := by
  rcases h.tagContent_cases with hnil | ⟨c, rest, hcons, hstart⟩
  · rw [hnil]
    rfl
  · rw [hcons]
    simp only [isNameStart, Bool.or_eq_true] at hstart
    rcases hstart with (halpha | hc) | hc
    · simp [opensTag, isLetter, toNat_lt_of_isAlpha halpha, halpha]
    · simp [opensTag, hc]
    · simp [opensTag, hc]

theorem head?_tagContent (h : node.WellFormedHere) : node.tagContent.head? ≠ some '/' := by
  rcases h.tagContent_cases with hnil | ⟨c, rest, hcons, hstart⟩
  · simp [hnil]
  · rw [hcons, List.head?_cons, ne_eq, Option.some.injEq]
    rintro rfl
    exact absurd hstart (by decide)

theorem openingTag (h : node.WellFormedHere) :
    Token.OpeningTag node.tagContent node.tag node.attributes node.closesItself := by
  cases hcloses : node.closesItself with
  | true =>
      have hspace : ∀ c ∈ [' '], isBlank c = true := by decide
      have hcontent : node.tagContent =
          node.tag.toList ++ (renderAttributes node.attributes ++ [' ']) ++ ['/'] := by
        simp [Node.tagContent, hcloses]
      have hslash : trimEnd node.tagContent =
          node.tag.toList ++ (renderAttributes node.attributes ++ [' ']) ++ ['/'] := by
        rw [hcontent, trimEnd_concat (by decide)]
      have htag : node.tag = "" → [' '] = [] := by
        intro htag
        simp [Node.closesItself, htag] at hcloses
      have hopening := Token.OpeningTag.selfClosing hslash (h.leadingName hspace htag)
        (read_renderAttributes h.attributes hspace)
      rwa [String.ofList_toList] at hopening
  | false =>
      have hcontent : node.tagContent = node.tag.toList ++ (renderAttributes node.attributes ++ []) := by
        simp [Node.tagContent, hcloses]
      have hslash : (trimEnd node.tagContent).getLast? ≠ some '/' := by
        rw [hcontent, List.append_nil]
        have hgood := h.getLast?_content
        rcases List.eq_nil_or_concat (node.tag.toList ++ renderAttributes node.attributes) with
          hnil | ⟨front, c, hconcat⟩
        · simp [hnil, trimEnd]
        · rw [hconcat, List.concat_eq_append] at hgood ⊢
          obtain ⟨hblank, hne⟩ := hgood c (by simp)
          rw [trimEnd_concat hblank]
          simpa using hne
      have hname := @leadingName node h [] (by simp) (fun _ => rfl)
      rw [← hcontent] at hname
      have hopening := Token.OpeningTag.pair hslash hname (read_renderAttributes h.attributes (by simp))
      rwa [String.ofList_toList] at hopening

/-- The opening tag of a well-formed element reads back. -/
theorem readsBack (h : node.WellFormedHere) : node.ReadsBack := by
  have hinside : TagInside node.tagContent := by
    refine tagInside_append (tagInside_append (Token.tagInside_of_isTagChar h.isTagChar)
      (tagInside_renderEntries h.attributes)) ?_
    split
    · exact .plain (by decide) (by decide) (by decide) (.plain (by decide) (by decide) (by decide) .nil)
    · exact .nil
  exact Node.readsBack_iff.2 ⟨h.opensTag_tagContent, h.head?_tagContent, hinside, h.openingTag⟩

end Node.WellFormedHere

/-- A well-formed tree can be read back. -/
theorem Node.WellFormed.readable {root : Node} (h : root.WellFormed) : root.Readable :=
  fun node hnode => ⟨(h node hnode).readsBack, (h node hnode).texts⟩

/-- A tree with an attribute of every form, a text with a brace, and an element without children. -/
def sampleTree : Node :=
  .mk "" "Card" (.ofList [("open", .flag true), ("title", .text "a > \"b\""),
      ("onClick", .expression "\x7b() => go(\"\x7d\")\x7d"), ("\x7b...rest\x7d", .flag true)])
    [.text "1 < 2 \x7bx\x7d", .element (.mk "" "br" .empty [])]

end ComponentBuilder.Markup
