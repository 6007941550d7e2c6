import ComponentBuilder.Proofs.Markup.Header
import ComponentBuilder.Proofs.Markup.Passing

/-!
# The canonical module around a tree

The search for the returned markup of a canonical module finds the parentheses after its header whatever
the tree is; when the tree can be read back, what stands in them is its text with nothing but blanks around
it.
-/

namespace ComponentBuilder.Markup

open Text Scan

/-! ## Finding the parentheses -/

theorem begins_returnPattern : returnPattern.Begins "return".toList :=
  Pattern.begins_seq (Pattern.begins_seq (Pattern.begins_word "return") _) _

/-- The first parenthesis after the default export is the one that opens the returned markup. -/
theorem searchFrom_functionText (behind : List Char) (offset : Nat) (rest : List Char) :
    ∃ spot, returnPattern.searchFrom behind offset (functionText ++ rest) =
      some (spot, ⟨functionText.reverse ++ behind, offset + functionText.length, rest, []⟩) := by
  have hfunction : functionText = 'e' :: functionText.tail := by decide +kernel
  -- what stands before the export is not known, but no match begins with its first letter
  have hfirst : returnPattern.matchAt? ⟨behind, offset, 'e' :: (functionText.tail ++ rest), []⟩ = none := by
    cases hmatch : returnPattern.matchAt? ⟨behind, offset, 'e' :: (functionText.tail ++ rest), []⟩ with
    | none => rfl
    | some last =>
        obtain ⟨part, more, captured, htext, hfits, -⟩ := Pattern.fits_of_run hmatch
        have hprefix : "return".toList <+: 'e' :: (functionText.tail ++ rest) :=
          (begins_returnPattern hfits).trans ⟨more, htext.symm⟩
        have hhead := hprefix.head (by decide +kernel)
        simp at hhead
  have hstep : returnPattern.searchFrom behind offset (functionText ++ rest) =
      returnPattern.searchFrom ('e' :: behind) (offset + 1) (functionText.tail ++ rest) := by
    rw [hfunction, List.cons_append, Pattern.searchFrom, List.tail_cons, hfirst]
  obtain ⟨spot, hsearch⟩ : ∃ spot,
      returnPattern.searchFrom ('e' :: behind) (offset + 1) (functionText.tail ++ rest) =
        some (spot, ⟨functionText.tail.reverse ++ 'e' :: behind, offset + 1 + functionText.tail.length,
          rest, []⟩) := ⟨_, rfl⟩
  refine ⟨spot, ?_⟩
  rw [hstep, hsearch]
  rfl

/-- The returned markup is sought in the parentheses of the first function that is exported. -/
theorem returnBody_functionText {front : List Char} (h : ¬"export default".toList <:+: front)
    (rest : List Char) :
    ∃ offset, returnBody (front ++ (functionText ++ rest)) =
      match parentheses offset ('(' :: rest) with
      | .error e => .error e
      | .ok (found, _) => .ok found.tail.dropLast := by
  obtain ⟨spot, hsearch⟩ := searchFrom_functionText front.reverse front.length rest
  refine ⟨front.length + functionText.length - 1, ?_⟩
  unfold returnBody findReturn?
  rw [find?_functionText h]
  dsimp only
  rw [hsearch]
  rfl

/-- The returned markup of a canonical module is sought in the parentheses around the tree's text. -/
theorem returnBody_moduleText (root : Node) :
    ∃ offset, returnBody (moduleText root defaultComponent).toList =
      match parentheses offset ('(' :: returnedText root) with
      | .error e => .error e
      | .ok (found, _) => .ok found.tail.dropLast := by
  rw [toList_moduleText]
  exact returnBody_functionText not_infix_headerText (returnedText root)

theorem exists_append_of_parentheses {offset : Nat} {text found rest : List Char}
    (h : parentheses offset text = .ok (found, rest)) :
    text = found ++ rest ∧ advance [.parentheses 0 offset] [] offset found rest = some [] := by
  unfold parentheses at h
  cases hrun : run [.parentheses 0 offset] [] offset text with
  | error e => simp [hrun] at h
  | ok cut =>
      simp only [hrun, Except.ok.injEq, Prod.mk.injEq] at h
      obtain ⟨part, htext, hbehind, hpart⟩ := advance_of_run hrun
      obtain ⟨rfl, rfl⟩ := h
      rw [hbehind]
      simpa using ⟨htext, hpart⟩

/-- The returned markup of a canonical module is a front of what follows its parenthesis. -/
theorem exists_append_of_returnBody {root : Node} {body : List Char}
    (h : returnBody (moduleText root defaultComponent).toList = .ok body) :
    ∃ rest, returnedText root = body ++ rest := by
  obtain ⟨offset, hbody⟩ := returnBody_moduleText root
  rw [hbody] at h
  cases hscan : parentheses offset ('(' :: returnedText root) with
  | error e => simp [hscan] at h
  | ok cut =>
      obtain ⟨found, rest⟩ := cut
      obtain ⟨happend, hadvance⟩ := exists_append_of_parentheses hscan
      simp only [hscan, Except.ok.injEq] at h
      cases found with
      | nil => simp at hadvance
      | cons c found =>
          rw [List.cons_append, List.cons.injEq] at happend
          rw [List.tail_cons] at h
          have hsplit : found.dropLast ++ found.drop (found.length - 1) = found := by
            rw [List.dropLast_eq_take, List.take_append_drop]
          exact ⟨found.drop (found.length - 1) ++ rest,
            by rw [happend.2, ← h, ← List.append_assoc, hsplit]⟩

/-! ## The tree's text in parentheses -/

theorem Node.render_eq_cons (node : Node) : node.render = '<' :: node.render.tail := by
  cases hrender : node.render with
  | nil =>
      have hhead := node.render_head?
      simp [hrender] at hhead
  | cons c rest =>
      have hhead := node.render_head?
      rw [hrender, List.head?_cons, Option.some.injEq] at hhead
      rw [hhead, List.tail_cons]

/-- A text that is read as an element is one element, whatever blanks are around it. -/
theorem ReadsAs.isLoneElement {text : List Char} {root : Node} (h : ReadsAs Fragment.plainName text root)
    {front back : List Char} (hfront : ∀ c ∈ front, isBlank c = true) (hback : ∀ c ∈ back, isBlank c = true) :
    IsLoneElement (front ++ (text ++ back)) := by
  obtain ⟨tokens, hcuts, helement⟩ := h front.length [] [] .nil
  rw [List.append_nil, List.append_nil] at hcuts
  obtain ⟨root', m, helement, -⟩ := helement 0
  exact ⟨front, text, back, tokens, root', m, rfl, hfront, hback, hcuts, helement⟩

/-- A tree that can be read back is written as one element. -/
theorem Node.Readable.isLoneElement {root : Node} (h : root.Readable) {front back : List Char}
    (hfront : ∀ c ∈ front, isBlank c = true) (hback : ∀ c ∈ back, isBlank c = true) :
    IsLoneElement (front ++ (root.render ++ back)) :=
  (h.readsAs Fragment.plainName root).isLoneElement hfront hback

/-- What stands in the parentheses of a module that returns a text which is read as an element. -/
theorem ReadsAs.returnBody_eq {text : List Char} {root : Node} (h : ReadsAs Fragment.plainName text root)
    {front : List Char} (hfront : ¬"export default".toList <:+: front) :
    returnBody (front ++ (functionText ++ ("\n    ".toList ++ (text ++ "\n  );\n\x7d\n".toList)))) =
      .ok ("\n    ".toList ++ (text ++ "\n  ".toList)) := by
  obtain ⟨offset, hbody⟩ := returnBody_functionText hfront ("\n    ".toList ++ (text ++ "\n  );\n\x7d\n".toList))
  have hlone : IsLoneElement ("\n    ".toList ++ (text ++ "\n  ".toList)) :=
    h.isLoneElement (by decide +kernel) (by decide +kernel)
  have htext : "\n    ".toList ++ (text ++ "\n  );\n\x7d\n".toList) =
      "\n    ".toList ++ (text ++ "\n  ".toList) ++ ')' :: ";\n\x7d\n".toList := by
    simp
  rw [hbody, htext, parentheses_of_isLoneElement hlone]
  dsimp only
  rw [List.tail_cons, List.dropLast_concat]

/-- What stands in the parentheses of a canonical module whose tree can be read back. -/
theorem returnBody_of_readable {root : Node} (h : root.Readable) :
    returnBody (moduleText root defaultComponent).toList =
      .ok ("\n    ".toList ++ (root.render ++ "\n  ".toList)) := by
  rw [toList_moduleText]
  exact (h.readsAs Fragment.plainName root).returnBody_eq not_infix_headerText

end ComponentBuilder.Markup
