import ComponentBuilder.Proofs.Markup.ReadTexts
import ComponentBuilder.Proofs.Markup.Tally

/-!
# What reading and writing again may change

Every token was spelled by a part of the text, and has a canonical spelling.  A tree's canonical text is
that of its tokens, unless an empty pair of tags became one tag; then it is shorter by every tally.  The
canonical spelling of a token in turn counts no more than the part it was read from.
-/

namespace ComponentBuilder.Markup

open Text Scan AttributeList

/-! ## Spellings -/

namespace Token

/-- The parts of a text that a token can be read from. -/
inductive Spells : List Char → Token → Prop
  | text {piece : List Char} (hpiece : piece ≠ []) : Spells piece (.text piece)
  | opening {content : List Char} {tag : String} {attributes : Attributes} {selfClosing : Bool}
      (h : Opens content tag attributes selfClosing) :
      Spells ('<' :: (content ++ ['>'])) (.opening tag attributes selfClosing)
  | closing {content : List Char} {offset : Nat} (hinside : TagInside content) :
      Spells ('<' :: '/' :: (content ++ ['>'])) (.closing (String.ofList (trim content)) offset)

/-- The canonical text of a token. -/
def written : Token → List Char
  | .text piece => piece
  | .opening tag attributes true => (Node.mk "" tag attributes []).render
  | .opening tag attributes false => '<' :: (tag.toList ++ renderAttributes attributes ++ ['>'])
  | .closing tag _ => '<' :: '/' :: (tag.toList ++ ['>'])

/-- An opening tag with a name, or one of a fragment without attributes. -/
def isNamed : Token → Bool
  | .opening tag attributes selfClosing =>
      !tag.isEmpty || (attributes.entries.isEmpty && !selfClosing)
  | _ => true

theorem exists_spells_of_cuts {offset : Nat} {text : List Char} {tokens : List Token}
    (h : Cuts offset text tokens) :
    ∃ parts : List (List Char), parts.flatten = text ∧ List.Forall₂ Spells parts tokens := by
  induction h with
  | nil => exact ⟨[], rfl, .nil⟩
  | closing hend _ ih =>
      obtain ⟨parts, rfl, hparts⟩ := ih
      obtain ⟨hinside, rfl⟩ := tag_eq_ok_iff.1 hend
      exact ⟨_ :: parts, by simp, .cons (.closing hinside) hparts⟩
  | @opening offset rest content after _ _ _ _ hopens hslash hend htag _ ih =>
      obtain ⟨parts, rfl, hparts⟩ := ih
      obtain ⟨rfl, htagOpens⟩ := opens_of_tag hopens hslash hend htag
      exact ⟨_ :: parts, by simp, .cons (.opening htagOpens) hparts⟩
  | expression hend _ ih =>
      obtain ⟨parts, rfl, hparts⟩ := ih
      obtain ⟨hsource, htext⟩ := expression_eq_ok_iff.1 hend
      obtain ⟨inside, rfl⟩ := hsource.eq_cons
      exact ⟨_ :: parts, htext.symm, .cons (.text (by simp)) hparts⟩
  | character _ _ _ ih =>
      obtain ⟨parts, rfl, hparts⟩ := ih
      exact ⟨_ :: parts, rfl, .cons (.text (by simp)) hparts⟩

end Token

/-! ## Shorter texts -/

/-- A text that begins like another one and counts less by every weight that counts closing brackets. -/
structure Shorter (text other : List Char) : Prop where
  head : text.head? = other.head?
  tally : ∀ w : Weight, tally w text + w.of '>' none ≤ tally w other

theorem Shorter.append_left {text other : List Char} (h : Shorter text other) (front : List Char) :
    Shorter (front ++ text) (front ++ other) := by
  refine ⟨by simp [h.head], fun w => ?_⟩
  have hcongr := w.tally_append_congr h.head front
  have htally := h.tally w
  omega

theorem Weight.tally_append_of_close (w : Weight) (front rest : List Char) :
    Markup.tally w (front ++ ['>'] ++ rest) = Markup.tally w (front ++ ['>']) + Markup.tally w rest := by
  rw [List.append_assoc, List.singleton_append, w.tally_append_glue (by decide),
    w.tally_append_glue (by decide), w.tally_cons_angle, w.tally_cons_angle]
  simp [Markup.tally, Nat.add_assoc]

/-- A text that is the same or shorter. -/
def AtMost (text other : List Char) : Prop :=
  text = other ∨ Shorter text other

theorem AtMost.head {text other : List Char} (h : AtMost text other) : text.head? = other.head? := by
  rcases h with rfl | h
  · rfl
  · exact h.head

theorem AtMost.tally_le {text other : List Char} (h : AtMost text other) (w : Weight) :
    tally w text ≤ tally w other := by
  rcases h with rfl | h
  · exact Nat.le_refl _
  · have := h.tally w
    omega

theorem AtMost.append_left {text other : List Char} (h : AtMost text other) (front : List Char) :
    AtMost (front ++ text) (front ++ other) := by
  rcases h with rfl | h
  · exact .inl rfl
  · exact .inr (h.append_left front)

/-- Texts that end in a closing bracket can be replaced in front of others. -/
theorem Shorter.append {first other rest rest' : List Char} (h : Shorter first other)
    (hrest : AtMost rest rest') (hfirst : ∃ front, first = front ++ ['>'])
    (hother : ∃ front, other = front ++ ['>']) : Shorter (first ++ rest) (other ++ rest') := by
  obtain ⟨front, rfl⟩ := hfirst
  obtain ⟨front', rfl⟩ := hother
  refine ⟨?_, fun w => ?_⟩
  · have hhead (front rest : List Char) :
        (front ++ ['>'] ++ rest).head? = (front ++ ['>']).head? := by
      cases front <;> rfl
    rw [hhead, hhead, h.head]
  · have htally := h.tally w
    have hle := hrest.tally_le w
    rw [w.tally_append_of_close, w.tally_append_of_close]
    omega

theorem AtMost.append {first other rest rest' : List Char} (h : AtMost first other)
    (hrest : AtMost rest rest') (hfirst : ∃ front, first = front ++ ['>'])
    (hother : ∃ front, other = front ++ ['>']) : AtMost (first ++ rest) (other ++ rest') := by
  rcases h with rfl | h
  · exact hrest.append_left first
  · exact .inr (h.append hrest hfirst hother)

/-- Texts can be replaced in front of a tag. -/
theorem AtMost.append_tag {text other : List Char} (h : AtMost text other) (rest : List Char) :
    AtMost (text ++ '<' :: rest) (other ++ '<' :: rest) := by
  rcases h with rfl | h
  · exact .inl rfl
  · refine .inr ⟨by simp [List.head?_append, h.head], fun w => ?_⟩
    have htally := h.tally w
    rw [w.tally_append_glue (by decide), w.tally_append_glue (by decide)]
    omega

/-- Each closing bracket counts one. -/
def angleWeight : Weight where
  of c _ := if c = '>' then 1 else 0
  least _ _ := Nat.le_refl _
  beforeGlue _ _ _ := rfl
  angle _ := rfl
  glue c _ _ _ hclose := by simp [hclose]

theorem Shorter.ne {text other : List Char} (h : Shorter text other) : text ≠ other := by
  rintro rfl
  have htally := h.tally angleWeight
  simp [angleWeight] at htally

/-! ## The text of a tree and that of its tokens -/

theorem renderChildren_append (first second : List Child) :
    renderChildren (first ++ second) = renderChildren first ++ renderChildren second := by
  induction first with
  | nil => rfl
  | cons child first ih => cases child <;> simp [renderChildren, ih]

theorem renderChildren_joinFrom (pending : List Char) (pieces : List Child) :
    renderChildren (joinFrom pending pieces) = pending ++ renderChildren pieces := by
  have htext (text : List Char) : renderChildren (textChild text) = text := by
    cases text <;> simp [textChild, renderChildren]
  induction pieces generalizing pending with
  | nil => rw [joinFrom, htext, renderChildren, List.append_nil]
  | cons piece pieces ih =>
      cases piece with
      | text value => rw [joinFrom, ih, renderChildren, List.append_assoc]
      | element node =>
          rw [joinFrom, renderChildren_append, htext, renderChildren, ih, List.nil_append,
            renderChildren]

theorem Node.exists_render_eq (node : Node) : ∃ front, node.render = front ++ ['>'] := by
  have hlast := node.render_getLast?
  rw [List.getLast?_eq_some_iff] at hlast
  exact hlast

theorem Element.exists_written_eq {name : Nat → String} {n m : Nat} {tokens : List Token} {node : Node}
    (h : Element name n tokens node m) : ∃ front, tokens.flatMap Token.written = front ++ ['>'] := by
  cases h with
  | @selfClosing _ tag attributes =>
      obtain ⟨front, hfront⟩ := (Node.mk "" tag attributes []).exists_render_eq
      exact ⟨front, by simp [Token.written, hfront]⟩
  | @pair _ _ offset tag attributes inner pieces _ =>
      refine ⟨Token.written (.opening tag attributes false) ++ (inner.flatMap Token.written ++
        '<' :: '/' :: tag.toList), ?_⟩
      simp [Token.written]

/-- An element with nothing between its tags is shorter as one tag. -/
theorem shorter_of_closesItself {id tag : String} {attributes : Attributes} {pieces : List Child}
    (hcloses : (Node.mk id tag attributes (joinTexts pieces)).closesItself = true)
    (inner : List Token) (offset : Nat) :
    Shorter (Node.mk id tag attributes (joinTexts pieces)).render
      ((.opening tag attributes false :: (inner ++ [.closing tag offset])).flatMap Token.written) := by
  have hrender : (Node.mk id tag attributes (joinTexts pieces)).render =
      '<' :: (tag.toList ++ renderAttributes attributes) ++ ' ' :: '/' :: ['>'] := by
    rw [Node.render_of_closesItself hcloses, Node.tagContent, hcloses]
    simp [Node.tag, Node.attributes]
  have hwritten : (.opening tag attributes false :: (inner ++ [.closing tag offset])).flatMap
      Token.written = '<' :: (tag.toList ++ renderAttributes attributes) ++ '>' ::
        (inner.flatMap Token.written ++ '<' :: '/' :: tag.toList ++ ['>']) := by
    simp [Token.written]
  rw [hrender, hwritten]
  refine ⟨rfl, fun w => ?_⟩
  generalize '<' :: (tag.toList ++ renderAttributes attributes) = front
  have hclose : tally w ['>'] = w.of '>' none := by simp [tally]
  have htext : tally w (front ++ ' ' :: '/' :: ['>']) = tally w front + w.of '>' none := by
    rw [w.tally_append_glue (by decide : isGlue ' ' = true),
      w.tally_cons_glue (by decide) (by decide) (by decide),
      w.tally_cons_glue (by decide) (by decide) (by decide), hclose]
  have hback := w.tally_le_append_left (inner.flatMap Token.written ++ '<' :: '/' :: tag.toList) ['>']
  rw [htext, w.tally_append_glue (by decide), w.tally_cons_angle]
  omega

theorem render_of_not_closesItself {id tag : String} {attributes : Attributes} {pieces : List Child}
    (hcloses : (Node.mk id tag attributes (joinTexts pieces)).closesItself = false) :
    (Node.mk id tag attributes (joinTexts pieces)).render =
      Token.written (.opening tag attributes false) ++
        (renderChildren pieces ++ '<' :: '/' :: (tag.toList ++ ['>'])) := by
  rw [Node.render_of_pair hcloses, Node.tagContent, hcloses, Node.children, joinTexts,
    renderChildren_joinFrom]
  simp [Node.tag, Node.attributes, Token.written]

mutual

theorem atMost_of_element {name : Nat → String} {n m : Nat} {tokens : List Token} {node : Node}
    (h : Element name n tokens node m) : AtMost node.render (tokens.flatMap Token.written) := by
  match h with
  | @Element.selfClosing _ n tag attributes =>
      left
      simp [Token.written, Node.render]
  | @Element.pair _ n m offset tag attributes inner pieces hinner =>
      cases hcloses : (Node.mk (name n) tag attributes (joinTexts pieces)).closesItself with
      | true => exact .inr (shorter_of_closesItself hcloses inner offset)
      | false =>
          rw [render_of_not_closesItself hcloses, List.flatMap_cons, List.flatMap_append]
          have hinside := (atMost_of_content hinner).append_tag ('/' :: (tag.toList ++ ['>']))
          simpa [Token.written] using hinside.append_left (Token.written (.opening tag attributes false))

theorem atMost_of_content {name : Nat → String} {n m : Nat} {tokens : List Token}
    {pieces : List Child} (h : Content name n tokens pieces m) :
    AtMost (renderChildren pieces) (tokens.flatMap Token.written) := by
  match h with
  | .nil => exact .inl rfl
  | .text hrest =>
      simpa [renderChildren, Token.written] using (atMost_of_content hrest).append_left _
  | @Content.element _ _ _ _ _ _ node _ hfirst hrest =>
      rw [renderChildren, List.flatMap_append]
      exact (atMost_of_element hfirst).append (atMost_of_content hrest) node.exists_render_eq
        hfirst.exists_written_eq

end

theorem descendantsOf_joinFrom (pending : List Char) (pieces : List Child) :
    descendantsOf (joinFrom pending pieces) = descendantsOf pieces := by
  induction pieces generalizing pending with
  | nil => rw [joinFrom, descendantsOf_textChild, descendantsOf]
  | cons piece pieces ih =>
      cases piece with
      | text value => rw [joinFrom, ih, descendantsOf]
      | element node =>
          rw [joinFrom, descendantsOf_append, descendantsOf_textChild, descendantsOf, ih,
            descendantsOf, List.nil_append]

mutual

/-- When nothing gets shorter, every element has an opening token of its own. -/
theorem opening_mem_of_element {name : Nat → String} {n m : Nat} {tokens : List Token} {node : Node}
    (h : Element name n tokens node m) (heq : node.render = tokens.flatMap Token.written)
    (hnamed : ∀ token ∈ tokens, token.isNamed = true) :
    ∀ other ∈ node.descendants,
      Token.opening other.tag other.attributes other.closesItself ∈ tokens := by
  match h with
  | @Element.selfClosing _ n tag attributes =>
      intro other hother
      simp only [Node.descendants, descendantsOf, List.mem_singleton] at hother
      subst hother
      have htag : tag ≠ "" := by
        simpa [Token.isNamed] using hnamed _ List.mem_cons_self
      simp [Node.tag, Node.attributes, Node.closesItself, Node.children, htag]
  | @Element.pair _ n m offset tag attributes inner pieces hinner =>
      cases hcloses : (Node.mk (name n) tag attributes (joinTexts pieces)).closesItself with
      | true => exact absurd heq (shorter_of_closesItself hcloses inner offset).ne
      | false =>
          have hinside : renderChildren pieces = inner.flatMap Token.written := by
            rw [render_of_not_closesItself hcloses] at heq
            simpa [Token.written] using heq
          have hnamed' : ∀ token ∈ inner, token.isNamed = true :=
            fun token htoken => hnamed token (by simp [htoken])
          have hmem := opening_mem_of_content hinner hinside hnamed'
          have hchildren : descendantsOf (joinTexts pieces) = descendantsOf pieces :=
            descendantsOf_joinFrom [] pieces
          intro other hother
          rw [Node.descendants, List.mem_cons, hchildren] at hother
          rcases hother with rfl | hother
          · rw [hcloses]
            exact List.mem_cons_self
          · exact List.mem_cons_of_mem _ (List.mem_append_left _ (hmem other hother))

theorem opening_mem_of_content {name : Nat → String} {n m : Nat} {tokens : List Token}
    {pieces : List Child} (h : Content name n tokens pieces m)
    (heq : renderChildren pieces = tokens.flatMap Token.written)
    (hnamed : ∀ token ∈ tokens, token.isNamed = true) :
    ∀ other ∈ descendantsOf pieces,
      Token.opening other.tag other.attributes other.closesItself ∈ tokens := by
  match h with
  | .nil => simp [descendantsOf]
  | .text hrest =>
      have htail := opening_mem_of_content hrest (by simpa [renderChildren, Token.written] using heq)
        fun token htoken => hnamed token (by simp [htoken])
      intro other hother
      exact List.mem_cons_of_mem _ (htail other hother)
  | @Content.element _ _ _ _ first rest node pieces hfirst hrest =>
      rw [renderChildren, List.flatMap_append] at heq
      have hrender : node.render = first.flatMap Token.written := by
        rcases atMost_of_element hfirst with hrender | hshorter
        · exact hrender
        · exact absurd heq (hshorter.append (atMost_of_content hrest) node.exists_render_eq
            hfirst.exists_written_eq).ne
      rw [hrender, List.append_cancel_left_eq] at heq
      have hnode := opening_mem_of_element hfirst hrender fun token htoken =>
        hnamed token (by simp [htoken])
      have htail := opening_mem_of_content hrest heq fun token htoken => hnamed token (by simp [htoken])
      intro other hother
      rw [descendantsOf, List.mem_append] at hother
      rcases hother with hother | hother
      · exact List.mem_append_left _ (hnode other hother)
      · exact List.mem_append_right _ (htail other hother)

end

end ComponentBuilder.Markup
