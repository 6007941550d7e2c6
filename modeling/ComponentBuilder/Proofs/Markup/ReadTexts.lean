import ComponentBuilder.Proofs.Markup.Readable

/-!
# The texts of a tree that was read

A run of text between two tags holds nothing that opens a tag or an expression that does not end, since
the cut would have stopped there.  The texts of a tree that was read are such runs, so they are plain,
not empty, and never next to each other.
-/

namespace ComponentBuilder.Markup

open Text Scan

/-- The text in front of the first tag. -/
def leadingText : List Token → List Char
  | .text piece :: rest => piece ++ leadingText rest
  | _ => []

/-- Tokens whose runs of text are plain, from every place on. -/
def PlainRuns : List Token → Prop
  | [] => True
  | token :: rest => PlainText (leadingText (token :: rest)) ∧ PlainRuns rest

theorem PlainRuns.of_append {front back : List Token} (h : PlainRuns (front ++ back)) :
    PlainRuns back := by
  induction front with
  | nil => exact h
  | cons token front ih => exact ih h.2

theorem PlainRuns.plainText {tokens : List Token} (h : PlainRuns tokens) :
    PlainText (leadingText tokens) := by
  cases tokens with
  | nil => exact .nil
  | cons token rest => exact h.1

/-- A cut leaves plain runs of text, the first of them in front of the whole text. -/
theorem Token.Cuts.plainRuns {offset : Nat} {text : List Char} {tokens : List Token}
    (h : Cuts offset text tokens) : PlainRuns tokens ∧ leadingText tokens <+: text := by
  induction h with
  | nil => exact ⟨trivial, List.nil_prefix⟩
  | closing _ _ ih | opening _ _ _ _ _ ih => exact ⟨⟨.nil, ih.1⟩, List.nil_prefix⟩
  | expression hend _ ih =>
      obtain ⟨hsource, htext⟩ := expression_eq_ok_iff.1 hend
      refine ⟨⟨.expression hsource ih.1.plainText, ih.1⟩, ?_⟩
      rw [htext]
      exact (List.prefix_append_right_inj _).2 ih.2
  | @character offset c rest tokens hbrace htag _ ih =>
      refine ⟨⟨.character hbrace ?_ ih.1.plainText, ih.1⟩, (List.prefix_append_right_inj [c]).2 ih.2⟩
      intro hc
      obtain ⟨more, hmore⟩ := ih.2
      cases hleading : leadingText tokens with
      | nil => rfl
      | cons d leading =>
          rw [hleading] at hmore
          have hrest := htag hc
          rw [← hmore] at hrest
          exact hrest

theorem plainTexts_textChild {text : List Char} (htext : PlainText text) {rest : List Child}
    (hbegins : beginsWithText rest = false) (hrest : PlainTexts rest) :
    PlainTexts (textChild text ++ rest) := by
  cases text with
  | nil => exact hrest
  | cons c text =>
      refine ⟨?_, by rwa [String.toList_ofList], hbegins, hrest⟩
      intro hempty
      have hlist := congrArg String.toList hempty
      simp at hlist

theorem descendantsOf_append (first second : List Child) :
    descendantsOf (first ++ second) = descendantsOf first ++ descendantsOf second := by
  induction first with
  | nil => rfl
  | cons child first ih => cases child <;> simp [descendantsOf, ih]

theorem descendantsOf_textChild (text : List Char) : descendantsOf (textChild text) = [] := by
  cases text <;> rfl

theorem leadingText_of_element {name : Nat → String} {n m : Nat} {tokens : List Token} {node : Node}
    (h : Element name n tokens node m) (after : List Token) : leadingText (tokens ++ after) = [] := by
  cases h <;> rfl

mutual

theorem plainTexts_of_element {name : Nat → String} {n m : Nat} {tokens : List Token} {node : Node}
    (h : Element name n tokens node m) {after : List Token} (hruns : PlainRuns (tokens ++ after)) :
    ∀ other ∈ node.descendants, PlainTexts other.children := by
  match h with
  | .selfClosing =>
      intro other hother
      simp only [Node.descendants, descendantsOf, List.mem_singleton] at hother
      subst hother
      trivial
  | @Element.pair _ _ _ _ _ _ inner _ hinner =>
      rw [List.cons_append, List.append_assoc] at hruns
      have hall := plainTexts_of_content hinner [] rfl hruns.2.plainText hruns.2
      intro other hother
      rw [Node.descendants, List.mem_cons] at hother
      rcases hother with rfl | hother
      · exact hall.1
      · exact hall.2 other hother

theorem plainTexts_of_content {name : Nat → String} {n m : Nat} {tokens : List Token}
    {pieces : List Child} (h : Content name n tokens pieces m) (pending : List Char)
    {after : List Token} (hafter : leadingText after = [])
    (hpending : PlainText (pending ++ leadingText (tokens ++ after)))
    (hruns : PlainRuns (tokens ++ after)) :
    PlainTexts (joinFrom pending pieces) ∧
      ∀ other ∈ descendantsOf (joinFrom pending pieces), PlainTexts other.children := by
  match h with
  | .nil =>
      rw [List.nil_append, hafter, List.append_nil] at hpending
      have hplain := @plainTexts_textChild _ hpending [] rfl trivial
      rw [List.append_nil] at hplain
      exact ⟨hplain, by simp [joinFrom, descendantsOf_textChild]⟩
  | @Content.text _ _ _ piece _ rest hrest =>
      rw [List.cons_append, leadingText, ← List.append_assoc] at hpending
      rw [joinFrom, String.toList_ofList]
      exact plainTexts_of_content hrest (pending ++ piece) hafter hpending hruns.2
  | @Content.element _ _ _ _ _ _ node rest hfirst hrest =>
      rw [List.append_assoc] at hpending hruns
      rw [leadingText_of_element hfirst, List.append_nil] at hpending
      have hnode := plainTexts_of_element hfirst hruns
      have hmore := plainTexts_of_content hrest [] hafter hruns.of_append.plainText hruns.of_append
      refine ⟨plainTexts_textChild hpending rfl hmore.1, ?_⟩
      intro other hother
      rw [joinFrom, descendantsOf_append, descendantsOf_textChild, List.nil_append, descendantsOf,
        List.mem_append] at hother
      rcases hother with hother | hother
      · exact hnode other hother
      · exact hmore.2 other hother

end

/-- Every text in a tree that was read is plain. -/
theorem Fragment.plainTexts_of_read {name : Nat → String} {text : List Char} {root : Node}
    (h : read name text = .ok root) : ∀ node ∈ root.descendants, PlainTexts node.children := by
  obtain ⟨-, tokens, hcuts, hconclude⟩ := exists_cuts_of_read h
  obtain ⟨front, inner, back, m, rfl, -, -, helement⟩ := Reading.conclude_eq_ok_iff.1 hconclude
  have hruns := hcuts.plainRuns.1
  rw [List.append_assoc] at hruns
  exact plainTexts_of_element helement hruns.of_append

end ComponentBuilder.Markup
