import ComponentBuilder.Proofs.Guard.LocalRules
import ComponentBuilder.Proofs.Markup.Sources

/-!
# Local findings in the text of a tree

What a local rule finds in the canonical text of a tree is in one of its opening tags or in one of its
texts.  The texts stand in the markup that the tree was read from, so a rule that is silent on the source
can only find something in an opening tag.
-/

namespace ComponentBuilder.Guard

open Text Markup

/-- The opening tag of an element as it is written. -/
def openingText (node : Node) : List Char :=
  '<' :: (node.tagContent ++ ['>'])

variable {find : Finding}

/-! ## Opening tags of a tree -/

theorem Local.not_found_nil (h : Local find) : ¬Found find [] := by
  rintro ⟨a, part, rest, htext, hfind⟩
  have hne := h.nonempty hfind
  simp_all

theorem Local.found_concat_closing (h : Local find) (text : List Char) :
    Found find (text ++ ['>']) ↔ Found find text := by
  rw [h.found_append_closing (.inl rfl), or_iff_left h.not_found_nil]

/-- What is found in an opening tag is found in the text of its element. -/
theorem Local.found_render (h : Local find) {node : Node} (hfound : Found find (openingText node)) :
    Found find node.render := by
  cases hcloses : node.closesItself with
  | true =>
      rw [Node.render_of_closesItself hcloses]
      exact hfound
  | false =>
      rw [Node.render_of_pair hcloses]
      exact (h.found_append_closing (.inl rfl) ('<' :: node.tagContent) _).2
        (.inl ((h.found_concat_closing _).1 hfound))

theorem Local.found_around_render (h : Local find) {node : Node} (hfound : Found find node.render)
    (front back : List Char) : Found find (front ++ (node.render ++ back)) := by
  obtain ⟨text, htext⟩ := node.exists_render_eq
  have hback : Found find (node.render ++ back) := by
    rw [htext] at hfound ⊢
    rw [List.append_assoc, List.singleton_append, h.found_append_closing (.inl rfl)]
    exact .inl ((h.found_concat_closing _).1 hfound)
  rw [node.render_eq_cons, List.cons_append] at hback ⊢
  exact (h.found_append_opening front _).2 (.inr hback)

mutual

theorem exists_append_of_descendant (node : Node) : ∀ other ∈ node.descendants,
    ∃ front back, node.render = front ++ (other.render ++ back) := by
  obtain ⟨id, tag, attributes, children⟩ := node
  intro other hother
  rw [Node.descendants, List.mem_cons] at hother
  rcases hother with rfl | hother
  · exact ⟨[], [], by simp⟩
  · obtain ⟨front, back, hinside⟩ := exists_append_of_descendantOf children other hother
    have hcloses : (Node.mk id tag attributes children).closesItself = false := by
      cases children with
      | nil => cases hother
      | cons child rest => rfl
    rw [Node.render_of_pair hcloses]
    refine ⟨'<' :: ((Node.mk id tag attributes children).tagContent ++ '>' :: front),
      back ++ '<' :: '/' :: (tag.toList ++ ['>']), ?_⟩
    simp [Node.children, Node.tag, hinside]

theorem exists_append_of_descendantOf (children : List Child) : ∀ other ∈ descendantsOf children,
    ∃ front back, renderChildren children = front ++ (other.render ++ back) := by
  match children with
  | [] => simp [descendantsOf]
  | .text value :: rest =>
      intro other hother
      obtain ⟨front, back, hinside⟩ := exists_append_of_descendantOf rest other hother
      exact ⟨value.toList ++ front, back, by rw [renderChildren, hinside, List.append_assoc]⟩
  | .element node :: rest =>
      intro other hother
      rw [descendantsOf, List.mem_append] at hother
      rw [renderChildren]
      rcases hother with hother | hother
      · obtain ⟨front, back, hinside⟩ := exists_append_of_descendant node other hother
        exact ⟨front, back ++ renderChildren rest, by rw [hinside]; simp⟩
      · obtain ⟨front, back, hinside⟩ := exists_append_of_descendantOf rest other hother
        exact ⟨node.render ++ front, back, by rw [hinside, List.append_assoc]⟩

end

theorem Local.found_of_descendant (h : Local find) {root node : Node} (hnode : node ∈ root.descendants)
    (hfound : Found find (openingText node)) : Found find root.render := by
  obtain ⟨front, back, hrender⟩ := exists_append_of_descendant root node hnode
  rw [hrender]
  exact h.found_around_render (h.found_render hfound) front back

/-! ## Where a finding can be -/

/-- The name in a closing tag is in the opening tag, too. -/
theorem Local.found_of_closing (h : Local find) (hbracket : ¬Found find ['<']) {node : Node}
    (hfound : Found find ('<' :: '/' :: (node.tag.toList ++ ['>']))) :
    Found find (openingText node) := by
  have hslash := (h.found_append_closing (.inr rfl) ['<'] (node.tag.toList ++ ['>'])).1 hfound
  rw [or_iff_right hbracket, h.found_concat_closing] at hslash
  have hboundary : (renderAttributes node.attributes ++
      ((if node.closesItself then " /".toList else []) ++ ['>'])).head?.all isBoundary = true := by
    rw [renderAttributes]
    cases node.attributes.entries with
    | nil => cases node.closesItself <;> rfl
    | cons entry entries => rfl
  have hopening := h.found_within hslash (rfl : (['<'].getLast?.all isBoundary) = true) hboundary
  simpa [openingText, Node.tagContent] using hopening

/-- A finding in an opening tag of some elements, or in one of their texts. -/
def FoundAmong (find : Finding) (nodes : List Node) : Prop :=
  ∃ node ∈ nodes, Found find (openingText node) ∨
    ∃ value, Child.text value ∈ node.children ∧ Found find value.toList

theorem FoundAmong.mono {nodes others : List Node} (h : FoundAmong find nodes)
    (hsub : ∀ node ∈ nodes, node ∈ others) : FoundAmong find others := by
  obtain ⟨node, hnode, hfound⟩ := h
  exact ⟨node, hsub node hnode, hfound⟩

mutual

theorem Local.foundAmong_of_render (h : Local find) (hbracket : ¬Found find ['<']) (node : Node)
    (hplain : ∀ other ∈ node.descendants, PlainTexts other.children)
    (hfound : Found find node.render) : FoundAmong find node.descendants := by
  match hcloses : node.closesItself with
  | true =>
      rw [Node.render_of_closesItself hcloses] at hfound
      exact ⟨node, mem_descendants_self node, .inl hfound⟩
  | false =>
      obtain ⟨id, tag, attributes, children⟩ := node
      have hroot := hplain _ (mem_descendants_self _)
      have hinside : ∀ other ∈ descendantsOf children, PlainTexts other.children :=
        fun other hother => hplain other (by simp [Node.descendants, hother])
      rw [Node.render_of_pair hcloses] at hfound
      rcases (h.found_append_closing (.inl rfl) ('<' :: _) _).1 hfound with hfound | hfound
      · exact ⟨_, mem_descendants_self _, .inl ((h.found_concat_closing _).2 hfound)⟩
      · rcases h.foundAmong_of_renderChildren hbracket children hroot hinside rfl hfound with
          hfound | ⟨value, hvalue, hfound⟩ | hfound
        · exact hfound.mono fun other hother => by simp [Node.descendants, hother]
        · exact ⟨_, mem_descendants_self _, .inr ⟨value, hvalue, hfound⟩⟩
        · exact ⟨_, mem_descendants_self _, .inl (h.found_of_closing hbracket hfound)⟩

theorem Local.foundAmong_of_renderChildren (h : Local find) (hbracket : ¬Found find ['<'])
    (children : List Child) (hplain : PlainTexts children)
    (hinside : ∀ other ∈ descendantsOf children, PlainTexts other.children) {back : List Char}
    (hback : back.head? = some '<') (hfound : Found find (renderChildren children ++ back)) :
    FoundAmong find (descendantsOf children) ∨
      (∃ value, Child.text value ∈ children ∧ Found find value.toList) ∨ Found find back := by
  match children with
  | [] => exact .inr (.inr hfound)
  | .text value :: rest =>
      obtain ⟨-, -, hrest, hmore⟩ := hplain
      have hhead := head?_renderChildren hrest hback
      rw [renderChildren, List.append_assoc] at hfound
      have hlater := h.foundAmong_of_renderChildren hbracket rest hmore hinside hback
      cases htext : renderChildren rest ++ back with
      | nil => simp [htext] at hhead
      | cons c text =>
          rw [htext] at hhead hfound hlater
          obtain rfl : c = '<' := by simpa using hhead
          rcases (h.found_append_opening _ _).1 hfound with hfound | hfound
          · exact .inr (.inl ⟨value, List.mem_cons_self, hfound⟩)
          · rcases hlater hfound with hfound | ⟨other, hother, hfound⟩ | hfound
            · exact .inl hfound
            · exact .inr (.inl ⟨other, List.mem_cons_of_mem _ hother, hfound⟩)
            · exact .inr (.inr hfound)
  | .element node :: rest =>
      obtain ⟨text, htext⟩ := node.exists_render_eq
      rw [renderChildren, List.append_assoc, htext, List.append_assoc, List.singleton_append,
        h.found_append_closing (.inl rfl), ← h.found_concat_closing, ← htext] at hfound
      rcases hfound with hfound | hfound
      · have hnode := h.foundAmong_of_render hbracket node
          (fun other hother => hinside other (by simp [descendantsOf, hother])) hfound
        exact .inl (hnode.mono fun other hother => by simp [descendantsOf, hother])
      · rcases h.foundAmong_of_renderChildren hbracket rest hplain
          (fun other hother => hinside other (by simp [descendantsOf, hother])) hback hfound with
          hfound | ⟨value, hvalue, hfound⟩ | hfound
        · exact .inl (hfound.mono fun other hother => by simp [descendantsOf, hother])
        · exact .inr (.inl ⟨value, List.mem_cons_of_mem _ hvalue, hfound⟩)
        · exact .inr (.inr hfound)

end

/-! ## Rules on a tree that was read -/

theorem not_found_bracket {rule : Rule} : ∀ find ∈ rule.findings, ¬Found find ['<'] := by
  cases hlocal : rule.staysLocal with
  | true =>
      have hnone : rule.check ['<'] = [] := by
        cases rule <;> decide
      exact (check_eq_nil_iff hlocal).1 hnone
  | false => cases rule <;> simp_all [Rule.staysLocal, Rule.findings]

theorem Local.found_of_between (h : Local find) {value text : List Char} (hbetween : Between value text)
    (hfound : Found find value) : Found find text := by
  obtain ⟨front, back, rfl⟩ := hbetween
  exact (h.found_append_closing (.inl rfl) _ _).2 (.inr ((h.found_append_opening _ _).2 (.inl hfound)))

/--
A local rule that is silent on a source is silent on the text of the tree read from it exactly when it
is silent on every opening tag.
-/
theorem check_render_eq_nil_iff {rule : Rule} (hlocal : rule.staysLocal = true) {source body : List Char}
    {name : Nat → String} {root : Node} (hsource : rule.check source = [])
    (hbody : returnBody source = .ok body) (hread : Fragment.read name body = .ok root) :
    rule.check root.render = [] ↔ ∀ node ∈ root.descendants, rule.check (openingText node) = [] := by
  have hplain := Fragment.plainTexts_of_read hread
  have htexts := Fragment.textsBetween_of_read hread
  obtain ⟨front, back, hsplit⟩ := exists_append_of_returnBody_eq hbody
  constructor
  · intro hroot node hnode
    rw [check_eq_nil_iff hlocal] at hroot ⊢
    intro find hfind hfound
    exact hroot find hfind ((local_of_mem_findings find hfind).found_of_descendant hnode hfound)
  · intro hopening
    rw [check_eq_nil_iff hlocal] at hsource ⊢
    intro find hfind hfound
    have h := local_of_mem_findings find hfind
    obtain ⟨node, hnode, hfound | ⟨value, hvalue, hfound⟩⟩ :=
      h.foundAmong_of_render (not_found_bracket find hfind) root hplain hfound
    · exact (check_eq_nil_iff hlocal).1 (hopening node hnode) find hfind hfound
    · have hbetween := (htexts node hnode value hvalue).within front back
      rw [← hsplit] at hbetween
      exact hsource find hfind (h.found_of_between hbetween hfound)

end ComponentBuilder.Guard
