import ComponentBuilder.Proofs.Markup.Envelope
import ComponentBuilder.Proofs.Markup.Spelling

/-!
# Canonical modules that are read as themselves

The markup of a canonical module is a front of the tree's text with blanks around it.  When the tree read
from it is written as that text again, no part of it can count more than its canonical spelling, so every
tag stands where it was written and was read as what it says.
-/

namespace ComponentBuilder.Markup

open Text Scan

/-! ## The text in front of the root -/

theorem leadingText_append {front : List Token} (h : ∀ token ∈ front, token.isText = true)
    (rest : List Token) : leadingText (front ++ rest) = leadingText front ++ leadingText rest := by
  induction front with
  | nil => rfl
  | cons token front ih =>
      have hrest := ih fun other hother => h other (by simp [hother])
      have htoken := h token (by simp)
      cases token with
      | text piece => rw [List.cons_append, leadingText, hrest, leadingText, List.append_assoc]
      | opening | closing => cases htoken

theorem leadingText_letters (run : List Char) : leadingText (Token.letters run) = run := by
  induction run with
  | nil => rfl
  | cons c run ih =>
      have hcons : Token.letters (c :: run) = .text [c] :: Token.letters run := rfl
      rw [hcons, leadingText, ih, List.singleton_append]

theorem leadingText_of_spells {parts : List (List Char)} {tokens : List Token}
    (h : List.Forall₂ Token.Spells parts tokens) (htext : ∀ token ∈ tokens, token.isText = true) :
    leadingText tokens = parts.flatten := by
  induction h with
  | nil => rfl
  | @cons part token parts tokens hpart _ ih =>
      have hrest := ih fun other hother => htext other (by simp [hother])
      have htoken := htext token (by simp)
      cases hpart with
      | text => rw [leadingText, hrest, List.flatten_cons]
      | opening | closing => cases htoken

/-- A tag has no text in front of it. -/
theorem leadingText_of_opensTag {offset : Nat} {rest : List Char} {tokens : List Token}
    (h : Token.Cuts offset ('<' :: rest) tokens) (hopens : opensTag rest = true) :
    leadingText tokens = [] := by
  cases h with
  | closing | opening => rfl
  | character _ htag =>
      rw [htag rfl] at hopens
      cases hopens

/-- A text that is read is the text in front of the root, the parts of the root, and what follows. -/
theorem Fragment.exists_parts_of_read {name : Nat → String} {text : List Char} {root : Node}
    (h : read name text = .ok root) :
    ∃ front inner back m parts after, Token.Cuts 0 text (front ++ (inner ++ back)) ∧
      (∀ token ∈ front, token.isText = true) ∧ Element name 0 inner root m ∧
      List.Forall₂ Token.Spells parts inner ∧ text = leadingText front ++ (parts.flatten ++ after) := by
  obtain ⟨-, tokens, hcuts, hconclude⟩ := exists_cuts_of_read h
  obtain ⟨front, inner, back, m, rfl, hfront, -, hinner⟩ := Reading.conclude_eq_ok_iff.1 hconclude
  rw [List.append_assoc] at hcuts
  obtain ⟨all, rfl, hall⟩ := Token.exists_spells_of_cuts hcuts
  have hbefore := List.forall₂_take_append all front (inner ++ back) hall
  have hrest := List.forall₂_drop_append all front (inner ++ back) hall
  have hparts := List.forall₂_take_append _ inner back hrest
  refine ⟨front, inner, back, m, _, ((all.drop front.length).drop inner.length).flatten, hcuts, hfront,
    hinner, hparts, ?_⟩
  rw [leadingText_of_spells hbefore hfront, ← List.flatten_append, List.take_append_drop,
    ← List.flatten_append, List.take_append_drop]

/-! ## Counting what was written -/

/-- What stands around the tree in the parentheses counts nothing. -/
theorem tally_returnedText (w : Weight) (root : Node) (hfront : tally w "\n    ".toList = 0)
    (hback : tally w "\n  );\n\x7d\n".toList = 0) :
    tally w (returnedText root) = tally w root.render := by
  obtain ⟨text, htext⟩ := root.exists_render_eq
  have hroot := w.tally_append_of_close text "\n  );\n\x7d\n".toList
  rw [← htext, hback, Nat.add_zero] at hroot
  have hhead : root.render ++ "\n  );\n\x7d\n".toList =
      '<' :: (root.render.tail ++ "\n  );\n\x7d\n".toList) := by
    rw [← List.cons_append, ← root.render_eq_cons]
  rw [hhead] at hroot
  rw [returnedText, hhead, w.tally_append_glue (by decide), hfront, hroot, Nat.zero_add]

theorem unnamed_eq_zero_iff {token : Token} : Token.unnamed token = 0 ↔ token.isNamed = true := by
  unfold Token.unnamed
  split <;> simp_all

/-- The parts of a root that was read from the text of a tree and is written as that tree. -/
structure Reread (root root' : Node) (inner : List Token) (parts : List (List Char)) : Prop where
  render : root'.render = root.render
  spells : List.Forall₂ Token.Spells parts inner
  element : ∃ name n m, Element name n inner root' m
  within : ∃ before after, returnedText root = before ++ (parts.flatten ++ after)

namespace Reread

variable {root root' : Node} {inner : List Token} {parts : List (List Char)}

theorem tally_le (h : Reread root root' inner parts) (w : Weight) (hfront : tally w "\n    ".toList = 0)
    (hback : tally w "\n  );\n\x7d\n".toList = 0) :
    tally w parts.flatten ≤ tally w root'.render := by
  obtain ⟨before, after, hwithin⟩ := h.within
  have hleft := w.tally_le_append_left before (parts.flatten ++ after)
  have hright := w.tally_le_append_right parts.flatten after
  rw [h.render, ← tally_returnedText w root hfront hback, hwithin]
  omega

theorem atMost (h : Reread root root' inner parts) :
    AtMost root'.render (inner.flatMap Token.written) := by
  obtain ⟨name, n, m, hinner⟩ := h.element
  exact atMost_of_element hinner

/-- A fragment with attributes would lose the strange letter that opened it. -/
theorem isNamed (h : Reread root root' inner parts) : ∀ token ∈ inner, token.isNamed = true := by
  have hparts : List.Forall₂ (Token.SpellsWith strangeWeight Token.unnamed) parts inner :=
    h.spells.imp fun _ _ hspells => Token.spellsWith_strange hspells
  have hwritten := (Token.tally_flatMap_written (fun _ => rfl) hparts).2
  have hread := h.tally_le strangeWeight (by decide) (by decide)
  have hmost := h.atMost.tally_le strangeWeight
  have hnone : (inner.map Token.unnamed).sum = 0 := by omega
  intro token htoken
  have hzero := List.sum_eq_zero_iff.1 hnone _ (List.mem_map_of_mem htoken)
  exact unnamed_eq_zero_iff.1 hzero

/-- A text with fewer closing brackets than the root was read from could not hold it. -/
theorem tally_angle_eq (h : Reread root root' inner parts) :
    root'.render = inner.flatMap Token.written ∧
      tally angleWeight parts.flatten ≤ tally angleWeight (inner.flatMap Token.written) := by
  have hparts := Token.forall₂_spellsWith angleWeight h.spells h.isNamed
  have hwritten := (Token.tally_flatMap_written (fun _ => rfl) hparts).2
  have hread := h.tally_le angleWeight (by decide) (by decide)
  rcases h.atMost with heq | hshorter
  · exact ⟨heq, heq ▸ hread⟩
  · have hlt := hshorter.tally angleWeight
    have hclose : angleWeight.of '>' none = 1 := rfl
    omega

theorem render_eq (h : Reread root root' inner parts) :
    root.render = inner.flatMap Token.written := by
  rw [← h.render, h.tally_angle_eq.1]

end Reread

/-! ## Every tag stands where it was written -/

theorem Element.exists_opening {name : Nat → String} {n m : Nat} {tokens : List Token} {node : Node}
    (h : Element name n tokens node m) : ∃ tag attributes selfClosing rest,
      tokens = .opening tag attributes selfClosing :: rest := by
  cases h with
  | selfClosing => exact ⟨_, _, _, [], rfl⟩
  | pair => exact ⟨_, _, _, _, rfl⟩

/-- The first tag of what was read opens where its canonical spelling stands. -/
theorem Reread.opensTag_eq {root root' : Node} {inner : List Token} {parts : List (List Char)}
    (h : Reread root root' inner parts) : opensTag root.render.tail = true := by
  obtain ⟨name, n, m, hinner⟩ := h.element
  obtain ⟨tag, attributes, selfClosing, rest, rfl⟩ := hinner.exists_opening
  have hnamed := h.isNamed _ List.mem_cons_self
  have hspells := h.spells
  rw [h.render_eq, List.flatMap_cons]
  cases hspells with
  | @cons part _ parts _ hpart _ =>
      cases hpart with
      | opening hopens =>
          by_cases htag : tag = ""
          · subst htag
            obtain ⟨hentries, rfl⟩ : attributes.entries = [] ∧ selfClosing = false := by
              simpa [Token.isNamed] using hnamed
            simp [Token.written, renderAttributes, hentries, opensTag]
          · obtain ⟨c, more, hhead, htoList, -⟩ := hopens.reads.head? htag
            rw [Token.written_opening attributes (.inl htag), htoList, ← hopens.opens]
            refine opensTag_congr ?_
            rw [List.head?_append, hhead]
            rfl

/-- The parts are the canonical spellings of what was read from them. -/
theorem Reread.parts_eq {root root' : Node} {inner : List Token} {parts : List (List Char)}
    (h : Reread root root' inner parts) {after : List Char}
    (hwithin : returnedText root = "\n    ".toList ++ (parts.flatten ++ after)) :
    parts = inner.map Token.written := by
  rw [returnedText, List.append_cancel_left_eq, h.render_eq] at hwithin
  exact Token.parts_eq_written h.spells h.isNamed hwithin h.tally_angle_eq.2

/-- A root written as the tree has nothing but the blanks of the module in front of it. -/
theorem leadingText_eq {root root' : Node} {front inner back : List Token} {parts : List (List Char)}
    {body after rest : List Char} (h : Reread root root' inner parts)
    (hcuts : Token.Cuts 0 body (front ++ (inner ++ back))) (hend : body.getLast? ≠ some '<')
    (hfront : ∀ token ∈ front, token.isText = true)
    (hbody : body = leadingText front ++ (parts.flatten ++ after))
    (hwithin : returnedText root = body ++ rest) : leadingText front = "\n    ".toList := by
  obtain ⟨name, n, m, hinner⟩ := h.element
  have hleading : leadingText (front ++ (inner ++ back)) = leadingText front := by
    rw [leadingText_append hfront, leadingText_of_element hinner, List.append_nil]
  have hangle : '<' ∈ body := by
    obtain ⟨tag, attributes, selfClosing, more, rfl⟩ := hinner.exists_opening
    have hspells := h.spells
    cases hspells with
    | cons hpart =>
        cases hpart with
        | opening => simp [hbody]
  rw [returnedText, root.render_eq_cons] at hwithin
  rcases List.append_eq_append_iff.1 hwithin with ⟨more, hblanks, htext⟩ | ⟨more, hblanks, htext⟩
  · cases more with
    | nil =>
        rw [hblanks] at hangle
        exact absurd hangle (by decide)
    | cons c more =>
        obtain ⟨rfl, htail⟩ := List.cons.inj htext
        subst hblanks
        have hplain : ∀ c ∈ "\n    ".toList, Token.isPlain c = true := by decide
        obtain ⟨others, htokens, hothers⟩ := Token.exists_cuts_of_run hplain hcuts
        have hopens : opensTag more = true := by
          have hroot := h.opensTag_eq
          cases more with
          | nil => simp at hend
          | cons d more =>
              rw [← hroot]
              refine opensTag_congr ?_
              cases htag : root.render.tail with
              | nil => simp [htag, opensTag] at hroot
              | cons e tail =>
                  rw [htag] at htail
                  exact congrArg some (List.cons.inj htail).1.symm
        rw [← hleading, htokens, leadingText_append Token.isText_letters, leadingText_letters,
          leadingText_of_opensTag hothers hopens, List.append_nil]
  · have hmem : '<' ∈ "\n    ".toList := hblanks ▸ List.mem_append_left more hangle
    exact absurd hmem (by decide)

theorem Node.written_opening (node : Node) :
    Token.written (.opening node.tag node.attributes node.closesItself) =
      '<' :: (node.tagContent ++ ['>']) := by
  obtain ⟨id, tag, attributes, children⟩ := node
  cases hcloses : (Node.mk id tag attributes children).closesItself with
  | true =>
      have hnone := Node.children_eq_nil_of_closesItself hcloses
      obtain rfl : children = [] := hnone
      have hself : (Node.mk "" tag attributes []).closesItself = true := hcloses
      exact Node.render_of_closesItself hself
  | false => simp [Token.written, Node.tagContent, hcloses]

/-- Every opening tag of what was read from a tree's text, and is written as it, reads back. -/
theorem Fragment.readsBack_of_read {name : Nat → String} {root root' : Node} {body rest : List Char}
    (hread : read name body = .ok root') (hwithin : returnedText root = body ++ rest)
    (hrender : root'.render = root.render) : ∀ node ∈ root'.descendants, node.ReadsBack := by
  obtain ⟨front, inner, back, m, parts, after, hcuts, hfront, hinner, hspells, hbody⟩ :=
    exists_parts_of_read hread
  have h : Reread root root' inner parts :=
    ⟨hrender, hspells, ⟨name, 0, m, hinner⟩, leadingText front, after ++ rest, by
      rw [hwithin, hbody]
      simp only [List.append_assoc]⟩
  have hblanks := leadingText_eq h hcuts (exists_cuts_of_read hread).1 hfront hbody hwithin
  have hreturned : returnedText root = "\n    ".toList ++ (parts.flatten ++ (after ++ rest)) := by
    rw [hwithin, hbody, hblanks]
    simp only [List.append_assoc]
  rw [h.parts_eq hreturned, List.forall₂_map_left_iff, List.forall₂_same] at hspells
  intro node hnode
  have htoken := hspells _ (opening_mem_of_element hinner h.tally_angle_eq.1 h.isNamed node hnode)
  rw [node.written_opening] at htoken
  generalize htext : '<' :: (node.tagContent ++ ['>']) = text at htoken
  cases htoken with
  | @opening content _ _ _ hopens =>
      obtain rfl : node.tagContent = content := by simpa using htext
      exact Node.readsBack_iff.2 hopens

end ComponentBuilder.Markup
