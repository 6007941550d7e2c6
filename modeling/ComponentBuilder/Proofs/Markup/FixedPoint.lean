import ComponentBuilder.Proofs.Markup.Alignment
import ComponentBuilder.Proofs.Markup.AttributeOrder
import ComponentBuilder.Proofs.Markup.Structure

/-!
# When a canonical module is a fixed point

Reading a canonical module and writing it again gives the same tree and the same module exactly when every
opening tag of the tree reads back by itself.  Reading a module does not ensure this: a tag that begins
with a letter of no name is read as a fragment with attributes, and its letter is not written again.
-/

namespace ComponentBuilder.Markup

open Text Scan AttributeList

/-! ## Trees of one structure and one text -/

theorem length_renderAttributes_of_perm {attributes attributes' : Attributes}
    (h : attributes.entries.Perm attributes'.entries) :
    (renderAttributes attributes).length = (renderAttributes attributes').length :=
  (h.flatMap_right _).length_eq

theorem isEmpty_of_sameChildren {as bs : List Child} (h : sameChildren as bs = true) :
    as.isEmpty = bs.isEmpty := by
  match as, bs with
  | [], [] => rfl
  | _ :: _, _ :: _ => rfl
  | [], .text _ :: _ | [], .element _ :: _ | .text _ :: _, [] | .element _ :: _, [] => cases h

mutual

/-- Trees of one structure are written in as many characters. -/
theorem Node.length_render_eq (a b : Node) (h : a.sameStructure b = true) :
    a.render.length = b.render.length := by
  match a, b with
  | .mk _ tag attributes children, .mk _ tag' attributes' children' =>
      simp only [Node.sameStructure, Bool.and_eq_true, beq_iff_eq] at h
      obtain ⟨⟨rfl, hattributes⟩, hchildren⟩ := h
      have hwritten := length_renderAttributes_of_perm (sortedEntries_eq_iff_perm.1 hattributes)
      have hinside := length_renderChildren_eq children children' hchildren
      have hempty := isEmpty_of_sameChildren hchildren
      rw [Node.render, Node.render, hempty]
      split
      · simp only [List.length_cons, List.length_append, hwritten]
      · simp only [List.length_cons, List.length_append, hwritten, hinside]

theorem length_renderChildren_eq (as bs : List Child) (h : sameChildren as bs = true) :
    (renderChildren as).length = (renderChildren bs).length := by
  match as, bs with
  | [], [] => rfl
  | .text a :: as, .text b :: bs =>
      simp only [sameChildren, Bool.and_eq_true, beq_iff_eq] at h
      obtain ⟨rfl, hrest⟩ := h
      simp only [renderChildren, List.length_append, length_renderChildren_eq as bs hrest]
  | .element a :: as, .element b :: bs =>
      simp only [sameChildren, Bool.and_eq_true] at h
      simp only [renderChildren, List.length_append, a.length_render_eq b h.1,
        length_renderChildren_eq as bs h.2]
  | [], .text _ :: _ | [], .element _ :: _ | .text _ :: _, [] | .element _ :: _, []
  | .text _ :: _, .element _ :: _ | .element _ :: _, .text _ :: _ => cases h

end

theorem Token.OpeningTag.shape {content : List Char} {tag : String} {attributes : Attributes}
    {selfClosing : Bool} (h : OpeningTag content tag attributes selfClosing) :
    ∀ entry ∈ attributes.entries, EntryShape entry.1 entry.2 := by
  cases h with
  | selfClosing _ _ hattributes => exact shape_of_read hattributes
  | pair _ _ hattributes => exact shape_of_read hattributes

mutual

/-- The text of a tree that reads back tells the order of its attributes. -/
theorem Node.unnamed_eq (a b : Node) (h : a.sameStructure b = true) (htext : a.render = b.render)
    (hback : ∀ node ∈ b.descendants, node.ReadsBack) : a.unnamed = b.unnamed := by
  match a, b with
  | .mk id tag attributes children, .mk id' tag' attributes' children' =>
      simp only [Node.sameStructure, Bool.and_eq_true, beq_iff_eq] at h
      obtain ⟨⟨rfl, hattributes⟩, hchildren⟩ := h
      have hperm := sortedEntries_eq_iff_perm.1 hattributes
      have hempty := isEmpty_of_sameChildren hchildren
      have hroot := hback _ (mem_descendants_self _)
      simp only [Node.render, hempty, List.cons.injEq, true_and, List.append_assoc,
        List.append_cancel_left_eq] at htext
      obtain ⟨hentries, htail⟩ := List.append_inj htext (length_renderAttributes_of_perm hperm)
      have hsame : attributes.entries = attributes'.entries :=
        (entries_eq_of_perm hperm.symm attributes'.distinct
          (Node.readsBack_iff.1 hroot).reads.shape hentries.symm).symm
      have hmore : unnamedChildren children = unnamedChildren children' := by
        refine unnamedChildren_eq children children' hchildren ?_
          fun node hnode => hback node (by simp [Node.descendants, hnode])
        split at htail
        · next hcloses =>
            have hnone : children'.isEmpty = true := (Bool.and_eq_true_iff.1 hcloses).1
            rw [hnone] at hempty
            rw [List.isEmpty_iff.1 hempty, List.isEmpty_iff.1 hnone]
        · simpa using htail
      cases attributes; cases attributes'
      simp only [Node.unnamed, Node.mk.injEq, Keyed.mk.injEq] at hsame ⊢
      exact ⟨trivial, trivial, hsame, hmore⟩

theorem unnamedChildren_eq (as bs : List Child) (h : sameChildren as bs = true)
    (htext : renderChildren as = renderChildren bs)
    (hback : ∀ node ∈ descendantsOf bs, node.ReadsBack) :
    unnamedChildren as = unnamedChildren bs := by
  match as, bs with
  | [], [] => rfl
  | .text a :: as, .text b :: bs =>
      simp only [sameChildren, Bool.and_eq_true, beq_iff_eq] at h
      obtain ⟨rfl, hrest⟩ := h
      rw [renderChildren, renderChildren, List.append_cancel_left_eq] at htext
      rw [unnamedChildren, unnamedChildren, unnamedChildren_eq as bs hrest htext hback]
  | .element a :: as, .element b :: bs =>
      simp only [sameChildren, Bool.and_eq_true] at h
      obtain ⟨hfirst, hrest⟩ := List.append_inj htext (a.length_render_eq b h.1)
      rw [unnamedChildren, unnamedChildren,
        a.unnamed_eq b h.1 hfirst fun node hnode => hback node (by simp [descendantsOf, hnode]),
        unnamedChildren_eq as bs h.2 hrest fun node hnode => hback node (by simp [descendantsOf, hnode])]
  | [], .text _ :: _ | [], .element _ :: _ | .text _ :: _, [] | .element _ :: _, []
  | .text _ :: _, .element _ :: _ | .element _ :: _, .text _ :: _ => cases h

end

/-! ## Identifiers -/

mutual

theorem Node.descendants_unnamed (node : Node) :
    node.unnamed.descendants = node.descendants.map Node.unnamed := by
  match node with
  | .mk _ tag attributes children =>
      simp only [Node.unnamed, Node.descendants, descendantsOf_unnamed children, List.map_cons]

theorem descendantsOf_unnamed (children : List Child) :
    descendantsOf (unnamedChildren children) = (descendantsOf children).map Node.unnamed := by
  match children with
  | [] => rfl
  | .text _ :: rest => simp only [unnamedChildren, descendantsOf, descendantsOf_unnamed rest]
  | .element node :: rest =>
      simp only [unnamedChildren, descendantsOf, node.descendants_unnamed, descendantsOf_unnamed rest,
        List.map_append]

end

theorem Node.readsBack_unnamed {node : Node} : node.unnamed.ReadsBack ↔ node.ReadsBack := by
  obtain ⟨id, tag, attributes, children⟩ := node
  have hcloses : (Node.mk id tag attributes children).unnamed.closesItself =
      (Node.mk id tag attributes children).closesItself := by
    simp only [Node.closesItself, Node.unnamed, Node.children, Node.tag, isEmpty_unnamedChildren]
  rw [Node.ReadsBack, Node.ReadsBack, Node.tagContent, Node.tagContent, hcloses]
  rfl

theorem readsBack_of_unnamed_eq {a b : Node} (h : a.unnamed = b.unnamed)
    (hb : ∀ node ∈ b.descendants, node.ReadsBack) : ∀ node ∈ a.descendants, node.ReadsBack := by
  intro node hnode
  have hmem : node.unnamed ∈ a.unnamed.descendants := by
    rw [a.descendants_unnamed]
    exact List.mem_map_of_mem hnode
  rw [h, b.descendants_unnamed] at hmem
  obtain ⟨other, hother, heq⟩ := List.mem_map.1 hmem
  rw [← Node.readsBack_unnamed, ← heq, Node.readsBack_unnamed]
  exact hb other hother

/-! ## The fixed points -/

theorem transform_eq_ok_iff {name : Nat → String} {component source : String} {canonical : Canonical} :
    transform name component source = .ok canonical ↔
      ∃ body, returnBody source.toList = .ok body ∧
        Fragment.read name body = .ok canonical.tree ∧
        canonical.code = moduleText canonical.tree component := by
  obtain ⟨tree, code⟩ := canonical
  unfold transform readModule
  cases hbody : returnBody source.toList with
  | error e => simp
  | ok body =>
      cases hread : Fragment.read name body with
      | error e => simp [hread]
      | ok root =>
          simp only [hread, Except.ok.injEq, Canonical.mk.injEq]
          constructor
          · rintro ⟨rfl, rfl⟩
            exact ⟨body, rfl, hread, rfl⟩
          · rintro ⟨body', rfl, hread', rfl⟩
            rw [hread, Except.ok.injEq] at hread'
            exact ⟨hread', by rw [hread']⟩

theorem moduleText_eq_iff {a b : Node} :
    moduleText a defaultComponent = moduleText b defaultComponent ↔ a.render = b.render := by
  rw [← String.toList_inj, toList_moduleText, toList_moduleText]
  simp only [returnedText, List.append_cancel_left_eq, List.append_cancel_right_eq]

/-- A canonical module whose tree reads back is read as that tree, up to identifiers. -/
theorem readModule_of_readable {root : Node} (h : root.Readable) (name : Nat → String) :
    ∃ root', readModule name (moduleText root defaultComponent) = .ok root' ∧
      root'.unnamed = root.unnamed := by
  obtain ⟨root', hread, hroot'⟩ :=
    @Fragment.read_of_readable root h name "\n    ".toList "\n  ".toList (by decide) (by decide)
  refine ⟨root', ?_, hroot'⟩
  rw [readModule, returnBody_of_readable h]
  exact hread

theorem readsBack_of_fixed {name name' : Nat → String} {source : String} {canonical : Canonical}
    {tree : Node} (h : transform name defaultComponent source = .ok canonical)
    (hagain : transform name' defaultComponent canonical.code = .ok ⟨tree, canonical.code⟩)
    (hstructure : canonical.tree.sameStructure tree = true) :
    ∀ node ∈ canonical.tree.descendants, node.ReadsBack := by
  obtain ⟨body, -, hread, hcode⟩ := transform_eq_ok_iff.1 h
  rw [hcode] at hagain
  obtain ⟨body', hbody', hread', hcode'⟩ := transform_eq_ok_iff.1 hagain
  have htext := moduleText_eq_iff.1 hcode'
  obtain ⟨rest, hrest⟩ := exists_append_of_returnBody hbody'
  have hback := Fragment.readsBack_of_read hread' hrest htext.symm
  exact readsBack_of_unnamed_eq (Node.unnamed_eq _ _ hstructure htext hback) hback

theorem exists_fixed_of_readsBack {name : Nat → String} {source : String} {canonical : Canonical}
    (h : transform name defaultComponent source = .ok canonical)
    (hback : ∀ node ∈ canonical.tree.descendants, node.ReadsBack) (name' : Nat → String) :
    ∃ tree, transform name' defaultComponent canonical.code = .ok ⟨tree, canonical.code⟩ ∧
      canonical.tree.sameStructure tree = true := by
  obtain ⟨body, -, hread, hcode⟩ := transform_eq_ok_iff.1 h
  have hplain := Fragment.plainTexts_of_read hread
  obtain ⟨tree, hagain, hunnamed⟩ :=
    readModule_of_readable (fun node hnode => ⟨hback node hnode, hplain node hnode⟩) name'
  refine ⟨tree, ?_, Node.sameStructure_of_unnamed_eq _ _ hunnamed.symm⟩
  have htext : tree.render = canonical.tree.render := by
    rw [← tree.render_unnamed, hunnamed, canonical.tree.render_unnamed]
  rw [hcode, transform, hagain]
  dsimp only
  rw [moduleText_eq_iff.2 htext]

/--
A module's canonical form is a fixed point, with the same tree, exactly when every opening tag of the
tree is read, by itself, as the tag it was written for.
-/
theorem transform_fixed_iff {name : Nat → String} {source : String} {canonical : Canonical}
    (h : transform name defaultComponent source = .ok canonical) (name' : Nat → String) :
    (∃ tree, transform name' defaultComponent canonical.code = .ok ⟨tree, canonical.code⟩ ∧
        canonical.tree.sameStructure tree = true) ↔
      ∀ node ∈ canonical.tree.descendants, node.ReadsBack :=
  ⟨fun ⟨_, hagain, hstructure⟩ => readsBack_of_fixed h hagain hstructure,
    fun hback => exists_fixed_of_readsBack h hback name'⟩

/-- A module with an unquoted value, which its canonical form has in quotes. -/
theorem transform_fixed_sample :
    ∃ canonical tree, transform Fragment.plainName defaultComponent "return (<p id=x>hi</p>)" =
        .ok canonical ∧
      transform Fragment.plainName defaultComponent canonical.code = .ok ⟨tree, canonical.code⟩ ∧
      canonical.tree.sameStructure tree = true := by
  have hsample : ((transform Fragment.plainName defaultComponent "return (<p id=x>hi</p>)").toOption.any
      fun canonical => decide (∀ node ∈ canonical.tree.descendants, node.ReadsBack)) = true := by
    decide +kernel
  cases hsource : transform Fragment.plainName defaultComponent "return (<p id=x>hi</p>)" with
  | error e => simp [hsource, Except.toOption] at hsample
  | ok canonical =>
      rw [hsource] at hsample
      obtain ⟨tree, hagain⟩ :=
        (transform_fixed_iff hsource Fragment.plainName).2 (of_decide_eq_true hsample)
      exact ⟨canonical, tree, rfl, hagain⟩

/-- The letter that opens the tag of this module is not written again. -/
theorem transform_not_fixed :
    ∃ canonical, transform Fragment.plainName defaultComponent
        "export default function App() \x7b\n  return (<Élan />);\n\x7d\n" = .ok canonical ∧
      ¬∃ tree, transform Fragment.plainName defaultComponent canonical.code =
          .ok ⟨tree, canonical.code⟩ ∧
        canonical.tree.sameStructure tree = true := by
  have hsample : ((transform Fragment.plainName defaultComponent
      "export default function App() \x7b\n  return (<Élan />);\n\x7d\n").toOption.any
        fun canonical => decide (¬∀ node ∈ canonical.tree.descendants, node.ReadsBack)) = true := by
    decide +kernel
  cases hsource : transform Fragment.plainName defaultComponent
      "export default function App() \x7b\n  return (<Élan />);\n\x7d\n" with
  | error e => simp [hsource, Except.toOption] at hsample
  | ok canonical =>
      rw [hsource] at hsample
      refine ⟨canonical, rfl, ?_⟩
      rintro ⟨tree, hagain, hstructure⟩
      exact of_decide_eq_true hsample (readsBack_of_fixed hsource hagain hstructure)

end ComponentBuilder.Markup
