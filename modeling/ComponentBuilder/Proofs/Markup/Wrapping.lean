import ComponentBuilder.Proofs.Markup.Envelope
import ComponentBuilder.Proofs.Markup.RoundTrip

/-!
# A fragment wrapped in a module

A module may be written around any fragment that is one element with blanks around it.  The search for the
returned markup gives the fragment back as it was written, so the module is read as the fragment is, whatever
comes before the exported function and after it.  The identifiers of the elements may differ: they are given
by whoever reads.
-/

namespace ComponentBuilder.Markup

open Text Scan

/-! ## Other identifiers -/

theorem unnamedChildren_joinFrom (pending : List Char) (pieces : List Child) :
    unnamedChildren (joinFrom pending pieces) = joinFrom pending (unnamedChildren pieces) := by
  have htext (pending : List Char) : unnamedChildren (textChild pending) = textChild pending := by
    unfold textChild
    split <;> rfl
  induction pieces generalizing pending with
  | nil => exact htext pending
  | cons piece pieces ih =>
      cases piece with
      | text value => exact ih _
      | element node =>
          rw [joinFrom, unnamedChildren_append, htext, unnamedChildren, unnamedChildren, joinFrom, ih]

mutual

/-- Tokens that stand for an element stand for the same one, up to identifiers, under other names. -/
theorem Element.exists_renamed {name : Nat → String} {n m : Nat} {tokens : List Token} {node : Node}
    (h : Element name n tokens node m) (name' : Nat → String) :
    ∃ node', Element name' n tokens node' m ∧ node'.unnamed = node.unnamed := by
  match h with
  | .selfClosing => exact ⟨_, .selfClosing, rfl⟩
  | .pair hinner =>
      obtain ⟨pieces', hinner', hpieces⟩ := hinner.exists_renamed name'
      refine ⟨_, .pair hinner', ?_⟩
      simp only [Node.unnamed, joinTexts, unnamedChildren_joinFrom, hpieces]

theorem Content.exists_renamed {name : Nat → String} {n m : Nat} {tokens : List Token}
    {pieces : List Child} (h : Content name n tokens pieces m) (name' : Nat → String) :
    ∃ pieces', Content name' n tokens pieces' m ∧ unnamedChildren pieces' = unnamedChildren pieces := by
  match h with
  | .nil => exact ⟨[], .nil, rfl⟩
  | .text hrest =>
      obtain ⟨pieces', hrest', hpieces⟩ := hrest.exists_renamed name'
      exact ⟨_, .text hrest', by simp only [unnamedChildren, hpieces]⟩
  | .element hfirst hrest =>
      obtain ⟨node', hfirst', hnode⟩ := hfirst.exists_renamed name'
      obtain ⟨pieces', hrest', hpieces⟩ := hrest.exists_renamed name'
      exact ⟨_, .element hfirst' hrest', by simp only [unnamedChildren, hnode, hpieces]⟩

end

/-- A text that is read at all is read as the same tree, up to identifiers, under other names. -/
theorem Fragment.exists_read_renamed {name : Nat → String} {text : List Char} {root : Node}
    (h : read name text = .ok root) (name' : Nat → String) :
    ∃ root', read name' text = .ok root' ∧ root'.unnamed = root.unnamed := by
  obtain ⟨hend, tokens, hcuts, hconclude⟩ := exists_cuts_of_read h
  obtain ⟨front, inner, back, m, htokens, hfront, hback, helement⟩ :=
    Reading.conclude_eq_ok_iff.1 hconclude
  obtain ⟨root', helement', hunnamed⟩ := helement.exists_renamed name'
  refine ⟨root', ?_, hunnamed⟩
  rw [read_eq_conclude hcuts hend, Reading.conclude_eq_ok_iff]
  exact ⟨front, inner, back, m, htokens, hfront, hback, helement'⟩

/-! ## The module around a fragment -/

/-- A module that returns a fragment, with a text before its exported function and one after it. -/
def wrappedText (leading jsx trailing : String) : String :=
  leading ++ "export default function App() \x7b\n  return (" ++ jsx ++ ");\n\x7d\n" ++ trailing

theorem toList_wrappedText (leading jsx trailing : String) :
    (wrappedText leading jsx trailing).toList =
      leading.toList ++ (functionText ++ (jsx.toList ++ ')' :: (";\n\x7d\n" ++ trailing).toList)) := by
  have hclose : ");\n\x7d\n".toList = ')' :: ";\n\x7d\n".toList := by decide +kernel
  unfold wrappedText functionText
  iterate 5 rw [String.toList_append]
  rw [hclose]
  generalize "export default function App() \x7b\n  return (".toList = opening
  simp only [List.append_assoc, List.cons_append]

theorem returnBody_wrappedText {leading jsx : String} (hlone : IsLoneElement jsx.toList)
    (hleading : ¬"export default".toList <:+: leading.toList) (trailing : String) :
    returnBody (wrappedText leading jsx trailing).toList = .ok jsx.toList := by
  obtain ⟨offset, hbody⟩ :=
    returnBody_functionText hleading (jsx.toList ++ ')' :: (";\n\x7d\n" ++ trailing).toList)
  rw [toList_wrappedText, hbody, parentheses_of_isLoneElement hlone]
  dsimp only
  rw [List.tail_cons, List.dropLast_concat]

/--
Wrapping is transparent: the markup that the module returns is the fragment as it was written, and the
module is read as a tree of the fragment's structure.
-/
theorem readModule_wrappedText {jsx leading : String} {root : Node} (hlone : IsLoneElement jsx.toList)
    (hread : Fragment.parse jsx = .ok root)
    (hleading : ¬"export default".toList <:+: leading.toList) (trailing : String) :
    extractReturnBody (wrappedText leading jsx trailing) = .ok jsx ∧
      ∀ name, ∃ root', readModule name (wrappedText leading jsx trailing) = .ok root' ∧
        root'.sameStructure root = true := by
  have hbody := returnBody_wrappedText hlone hleading trailing
  refine ⟨by rw [extractReturnBody, hbody, Except.map, String.ofList_toList], fun name => ?_⟩
  obtain ⟨root', hread', hunnamed⟩ := Fragment.exists_read_renamed hread name
  refine ⟨root', ?_, root'.sameStructure_of_unnamed_eq root hunnamed⟩
  -- The fragment is read from the same characters, so only the names can differ.
  rw [readModule, hbody]
  exact hread'

/-- An element whose text could be taken for the end of the parentheses or for a string. -/
def asideTree : Node :=
  .mk "node_0" "p" .empty [.text "it's :) ", .element (.mk "node_1" "br" .empty [])]

theorem asideTree_readable : asideTree.Readable := by
  have htext : PlainText "it's :) ".toList := by
    iterate 8 refine .character (by decide) (by decide) ?_
    exact .nil
  refine Node.WellFormed.readable fun node hnode => ?_
  simp only [asideTree, Node.descendants, descendantsOf, List.append_nil, List.mem_cons,
    List.not_mem_nil, or_false] at hnode
  rcases hnode with rfl | rfl
  · exact ⟨.inl ⟨'p', [], rfl, rfl, by decide⟩, fun _ hentry => (nomatch hentry),
      ⟨by decide, htext, rfl, trivial⟩⟩
  · exact ⟨.inl ⟨'b', ['r'], rfl, rfl, by decide⟩, fun _ hentry => (nomatch hentry), trivial⟩

theorem readModule_wrappedText_aside :
    IsLoneElement " <p>it's :) <br /></p>\n".toList ∧
      Fragment.parse " <p>it's :) <br /></p>\n" = .ok asideTree ∧
      ¬"export default".toList <:+: "const a = 'return (';\n".toList ∧
      extractReturnBody (wrappedText "const a = 'return (';\n" " <p>it's :) <br /></p>\n" "// )") =
        .ok " <p>it's :) <br /></p>\n" ∧
      ∀ name, ∃ root',
        readModule name (wrappedText "const a = 'return (';\n" " <p>it's :) <br /></p>\n" "// )") =
          .ok root' ∧ root'.sameStructure asideTree = true := by
  have htext : " <p>it's :) <br /></p>\n".toList = [' '] ++ (asideTree.render ++ ['\n']) := by
    decide +kernel
  have hlone : IsLoneElement " <p>it's :) <br /></p>\n".toList := by
    rw [htext]
    exact asideTree_readable.isLoneElement (by decide) (by decide)
  have hread : Fragment.parse " <p>it's :) <br /></p>\n" = .ok asideTree := rfl
  have hleading : ¬"export default".toList <:+: "const a = 'return (';\n".toList := by
    decide +kernel
  exact ⟨hlone, hread, hleading, readModule_wrappedText hlone hread hleading "// )"⟩

end ComponentBuilder.Markup
