import ComponentBuilder.Proofs.Markup.Alignment
import ComponentBuilder.Proofs.Text.Pattern

/-!
# Where the parts of a tree come from

The markup that a module returns is a part of the module, and a text of a tree is a part of the markup it
was read from, with the end of a tag before it and the beginning of one after it.
-/

namespace ComponentBuilder.Markup

open Text Scan

/-! ## Markup in a module -/

/-- The text that a place divides. -/
def spotText (spot : Spot) : List Char :=
  spot.behind.reverse ++ spot.ahead

theorem spotText_back (spot : Spot) : spotText spot.back = spotText spot := by
  obtain ⟨behind, offset, text, captured⟩ := spot
  cases behind with
  | nil => rfl
  | cons c behind => simp [spotText, Spot.back]

theorem spotText_of_matchAt? {p : Pattern} {spot last : Spot} (h : p.matchAt? spot = some last) :
    spotText last = spotText spot := by
  obtain ⟨part, rest, captured, htext, -, hlast⟩ := Pattern.fits_of_run h
  rw [Option.some.injEq] at hlast
  rw [← hlast, spotText, spotText, htext]
  simp [Pattern.after]

theorem spotText_of_searchFrom {p : Pattern} {behind text : List Char} {offset : Nat}
    {first last : Spot} (h : p.searchFrom behind offset text = some (first, last)) :
    spotText last = behind.reverse ++ text := by
  induction text generalizing behind offset with
  | nil =>
      rw [Pattern.searchFrom, Option.map_eq_some_iff] at h
      obtain ⟨last', hmatch, heq⟩ := h
      obtain ⟨-, rfl⟩ := Prod.mk.inj heq
      rw [spotText_of_matchAt? hmatch, spotText]
  | cons c text ih =>
      rw [Pattern.searchFrom] at h
      cases hmatch : p.matchAt? ⟨behind, offset, c :: text, []⟩ with
      | some last' =>
          rw [hmatch] at h
          obtain ⟨-, rfl⟩ := Prod.mk.inj (Option.some.inj h)
          rw [spotText_of_matchAt? hmatch, spotText]
      | none =>
          rw [hmatch] at h
          rw [ih h]
          simp

theorem spotText_of_findReturn? {source : List Char} {first last : Spot}
    (h : findReturn? source = some (first, last)) : spotText last = source := by
  have hanywhere (hsearch : returnPattern.search? source = some (first, last)) :
      spotText last = source := spotText_of_searchFrom hsearch
  unfold findReturn? at h
  dsimp only at h
  cases hfind : find? "export default".toList source with
  | none =>
      rw [hfind] at h
      exact hanywhere h
  | some found =>
      obtain ⟨before, rest⟩ := found
      rw [hfind] at h
      obtain ⟨front, hbefore, htext, -⟩ := exists_front_of_findFrom hfind
      rcases Option.or_eq_some_iff.1 h with hsearch | ⟨-, hsearch⟩
      · rw [spotText_of_searchFrom hsearch, htext, hbefore]
        simp
      · exact hanywhere hsearch

/-- The returned markup stands in the module. -/
theorem exists_append_of_returnBody_eq {source body : List Char} (h : returnBody source = .ok body) :
    ∃ front back, source = front ++ (body ++ back) := by
  unfold returnBody at h
  cases hreturn : findReturn? source with
  | none => simp [hreturn] at h
  | some found =>
      obtain ⟨first, last⟩ := found
      have htext := spotText_of_findReturn? hreturn
      rw [← spotText_back, spotText] at htext
      simp only [hreturn] at h
      generalize last.back = opening at h htext
      cases hscan : parentheses opening.offset opening.ahead with
      | error e => simp [hscan] at h
      | ok cut =>
          obtain ⟨scanned, rest⟩ := cut
          have hahead := (exists_append_of_parentheses hscan).1
          simp only [hscan, Except.ok.injEq] at h
          have hsplit : scanned = scanned.take 1 ++ (body ++ scanned.tail.drop (scanned.tail.length - 1)) := by
            rw [← h, List.dropLast_eq_take, List.take_append_drop]
            cases scanned <;> rfl
          refine ⟨opening.behind.reverse ++ scanned.take 1,
            scanned.tail.drop (scanned.tail.length - 1) ++ rest, ?_⟩
          rw [← htext, hahead]
          nth_rewrite 1 [hsplit]
          simp only [List.append_assoc]

/-! ## Texts in markup -/

/-- A text with the end of a tag before it and the beginning of one after it. -/
def Between (value text : List Char) : Prop :=
  ∃ front back, text = front ++ '>' :: (value ++ '<' :: back)

theorem Between.within {value text : List Char} (h : Between value text) (front back : List Char) :
    Between value (front ++ (text ++ back)) := by
  obtain ⟨before, after, rfl⟩ := h
  exact ⟨front ++ before, after ++ back, by simp⟩

/-- Every text child of some elements stands between tags of a text. -/
def TextsBetween (nodes : List Node) (text : List Char) : Prop :=
  ∀ node ∈ nodes, ∀ value, Child.text value ∈ node.children → Between value.toList text

theorem TextsBetween.within {nodes : List Node} {text : List Char} (h : TextsBetween nodes text)
    (front back : List Char) : TextsBetween nodes (front ++ (text ++ back)) :=
  fun node hnode value hvalue => (h node hnode value hvalue).within front back

theorem between_of_mem_textChild {value : String} {pending : List Char}
    (h : Child.text value ∈ textChild pending) (back : List Char) :
    Between value.toList ('>' :: (pending ++ '<' :: back)) := by
  cases pending with
  | nil => simp [textChild] at h
  | cons c pending =>
      have hvalue : value = String.ofList (c :: pending) := by simpa [textChild] using h
      exact ⟨[], back, by rw [hvalue, String.toList_ofList]; rfl⟩

theorem exists_parts_of_pair {first last : Token} {inner : List Token} {parts : List (List Char)}
    (h : List.Forall₂ Token.Spells parts (first :: (inner ++ [last]))) (hfirst : first.isText = false)
    (hlast : last.isText = false) :
    ∃ opening middle closing, parts = ('<' :: (opening ++ ['>'])) :: (middle ++ ['<' :: (closing ++ ['>'])]) ∧
      List.Forall₂ Token.Spells middle inner := by
  cases h with
  | @cons part _ others _ hpart hrest =>
      obtain ⟨opening, rfl⟩ := Token.exists_part_eq hpart hfirst
      have hmiddle := List.forall₂_take_append others inner [last] hrest
      have hend := List.forall₂_drop_append others inner [last] hrest
      have hsplit := List.take_append_drop inner.length others
      generalize others.drop inner.length = back at hend hsplit
      cases hend with
      | cons hclosing hnone =>
          cases hnone
          obtain ⟨closing, rfl⟩ := Token.exists_part_eq hclosing hlast
          exact ⟨opening, _, closing, by rw [hsplit], hmiddle⟩

theorem Element.exists_flatten_eq {name : Nat → String} {n m : Nat} {tokens : List Token} {node : Node}
    (h : Element name n tokens node m) {parts : List (List Char)}
    (hparts : List.Forall₂ Token.Spells parts tokens) :
    ∃ inner, parts.flatten = '<' :: (inner ++ ['>']) := by
  cases h with
  | selfClosing =>
      cases hparts with
      | cons hpart hrest =>
          cases hrest
          obtain ⟨inner, rfl⟩ := Token.exists_part_eq hpart rfl
          exact ⟨inner, by simp⟩
  | pair =>
      obtain ⟨opening, middle, closing, rfl, -⟩ := exists_parts_of_pair hparts rfl rfl
      exact ⟨opening ++ '>' :: (middle.flatten ++ '<' :: closing), by simp⟩

mutual

theorem textsBetween_of_element {name : Nat → String} {n m : Nat} {tokens : List Token} {node : Node}
    (h : Element name n tokens node m) {parts : List (List Char)}
    (hparts : List.Forall₂ Token.Spells parts tokens) :
    TextsBetween node.descendants parts.flatten := by
  match h with
  | .selfClosing =>
      intro other hother value hvalue
      simp only [Node.descendants, descendantsOf, List.mem_singleton] at hother
      subst hother
      cases hvalue
  | @Element.pair _ _ _ _ _ _ inner pieces hinner =>
      obtain ⟨opening, middle, closing, rfl, hmiddle⟩ := exists_parts_of_pair hparts rfl rfl
      have hcontent := textsBetween_of_content hinner hmiddle [] (closing ++ ['>'])
      have hflatten : (('<' :: (opening ++ ['>'])) :: (middle ++ ['<' :: (closing ++ ['>'])])).flatten =
          '<' :: opening ++ ('>' :: (middle.flatten ++ '<' :: (closing ++ ['>']))) := by
        simp
      rw [hflatten]
      intro other hother value hvalue
      rw [Node.descendants, List.mem_cons] at hother
      rcases hother with rfl | hother
      · simpa using (hcontent.1 value hvalue).within ('<' :: opening) []
      · have hinside := (hcontent.2 other hother value hvalue).within ('<' :: opening ++ ['>'])
          ('<' :: (closing ++ ['>']))
        simpa using hinside

theorem textsBetween_of_content {name : Nat → String} {n m : Nat} {tokens : List Token}
    {pieces : List Child} (h : Content name n tokens pieces m) {parts : List (List Char)}
    (hparts : List.Forall₂ Token.Spells parts tokens) (pending back : List Char) :
    (∀ value, Child.text value ∈ joinFrom pending pieces →
        Between value.toList ('>' :: (pending ++ (parts.flatten ++ '<' :: back)))) ∧
      TextsBetween (descendantsOf (joinFrom pending pieces)) parts.flatten := by
  match h with
  | .nil =>
      cases hparts
      refine ⟨fun value hvalue => between_of_mem_textChild hvalue back, ?_⟩
      rw [joinFrom, descendantsOf_textChild]
      simp [TextsBetween]
  | @Content.text _ _ _ piece _ rest hrest =>
      cases hparts with
      | @cons part _ parts _ hpart hothers =>
          cases hpart
          have hmore := textsBetween_of_content hrest hothers (pending ++ piece) back
          rw [joinFrom, String.toList_ofList, List.flatten_cons]
          refine ⟨?_, ?_⟩
          · simpa [List.append_assoc] using hmore.1
          · simpa using hmore.2.within piece []
  | @Content.element _ _ _ _ first others node rest hfirst hrest =>
      have hbefore := List.forall₂_take_append parts first others hparts
      have hafter := List.forall₂_drop_append parts first others hparts
      have hsplit : parts.flatten =
          (parts.take first.length).flatten ++ (parts.drop first.length).flatten := by
        rw [← List.flatten_append, List.take_append_drop]
      obtain ⟨inner, hinner⟩ := hfirst.exists_flatten_eq hbefore
      have hnode := textsBetween_of_element hfirst hbefore
      have hmore := textsBetween_of_content hrest hafter [] back
      rw [joinFrom, hsplit]
      refine ⟨?_, ?_⟩
      · intro value hvalue
        rw [List.mem_append, List.mem_cons] at hvalue
        rcases hvalue with hvalue | hvalue | hvalue
        · have hpending := between_of_mem_textChild hvalue
            (inner ++ ['>'] ++ ((parts.drop first.length).flatten ++ '<' :: back))
          simpa [hinner] using hpending
        · cases hvalue
        · have hlater := (hmore.1 value hvalue).within ('>' :: (pending ++ '<' :: inner)) []
          simpa [hinner] using hlater
      · intro other hother
        rw [descendantsOf_append, descendantsOf_textChild, List.nil_append, descendantsOf,
          List.mem_append] at hother
        rcases hother with hother | hother
        · exact hnode.within [] (parts.drop first.length).flatten other hother
        · simpa using hmore.2.within (parts.take first.length).flatten [] other hother

end

/-- Every text of a tree stands between tags of the markup that the tree was read from. -/
theorem Fragment.textsBetween_of_read {name : Nat → String} {text : List Char} {root : Node}
    (h : read name text = .ok root) : TextsBetween root.descendants text := by
  obtain ⟨front, inner, back, m, parts, after, -, -, hinner, hparts, rfl⟩ := exists_parts_of_read h
  exact (textsBetween_of_element hinner hparts).within _ _

end ComponentBuilder.Markup
