import ComponentBuilder.Proofs.Preview.Bindings
import ComponentBuilder.Proofs.Preview.Comments

/-!
# Import clauses and how they are written

A clause imports a default, the members of a module, or both, with comments and blanks anywhere between the
parts.  Taking the comments out leaves a text of the same clause with blanks alone between its parts.
-/

namespace ComponentBuilder.Preview

open Text

/-! ## Clauses -/

/-- A member of a module, and the name that a clause gives it. -/
structure Specifier where
  imported : String
  name : String

/-- The members that a clause imports: all of them under one name, or those of a list. -/
inductive Members
  | whole (name : String)
  | listed (specifiers : List Specifier)

/-- What an import clause imports. -/
structure Clause where
  default? : Option String
  members? : Option Members

namespace Clause

/-- The members that a clause lists. -/
def specifiers (clause : Clause) : List Specifier :=
  match clause.members? with
  | some (.listed specifiers) => specifiers
  | _ => []

/-- The name of the whole module. -/
def whole? (clause : Clause) : Option String :=
  match clause.members? with
  | some (.whole name) => some name
  | _ => none

/-- The names that a clause introduces. -/
def names (clause : Clause) : List String :=
  clause.default?.toList ++ clause.whole?.toList ++ clause.specifiers.map Specifier.name

end Clause

/-- The binding of a listed member, unless it is a hook. -/
def Specifier.binding? (specifier : Specifier) : Option Binding :=
  if specifier.imported ∈ Vocabulary.hooks then none else some ⟨specifier.name, .standIn specifier.imported⟩

/-- The bindings of a clause: React and the hooks have none. -/
def Clause.bindings (clause : Clause) : List Binding :=
  clause.specifiers.filterMap Specifier.binding? ++
    clause.whole?.toList.map (fun name => ⟨name, .wholeModule⟩) ++
    (clause.default?.toList.filter (· != "React")).map fun name => ⟨name, .standIn name⟩

/-! ## How clauses are written -/

section

variable (gap : List Char → Prop)

/-- A member with the name that it is given, when that is another one. -/
inductive Specifier.Bare : Specifier → List Char → Prop
  | plain {name : String} (hname : isIdentifier name.toList = true) : Bare ⟨name, name⟩ name.toList
  | aliased {imported name : String} {before after : List Char} (himported : isIdentifier imported.toList = true)
      (hname : isIdentifier name.toList = true) (hbefore : gap before) (hne : before ≠ []) (hafter : gap after)
      (hne' : after ≠ []) :
      Bare ⟨imported, name⟩ (imported.toList ++ (before ++ 'a' :: 's' :: (after ++ name.toList)))

/-- A member of a list; one that is a type has a word that says so.  A member of that name keeps it. -/
inductive Specifier.Written : Specifier → List Char → Prop
  | value {specifier : Specifier} {text : List Char} (h : specifier.Bare gap text)
      (htype : specifier.imported ≠ "type" ∨ text = specifier.imported.toList) : Written specifier text
  | marked {specifier : Specifier} {space text : List Char} (hspace : gap space) (h : specifier.Bare gap text) :
      Written specifier ("type ".toList ++ (space ++ text))

/-- The inside of a list, which may have a comma at its end. -/
inductive ListWritten : List Specifier → List Char → Prop
  | none {space : List Char} (hspace : gap space) : ListWritten [] space
  | last {specifier : Specifier} {front text back : List Char} (hfront : gap front)
      (h : specifier.Written gap text) (hback : gap back) : ListWritten [specifier] (front ++ (text ++ back))
  | more {specifier : Specifier} {specifiers : List Specifier} {front text back rest : List Char}
      (hfront : gap front) (h : specifier.Written gap text) (hback : gap back)
      (hrest : ListWritten specifiers rest) :
      ListWritten (specifier :: specifiers) (front ++ (text ++ (back ++ ',' :: rest)))

inductive Members.Written : Members → List Char → Prop
  | whole {name : String} {before after : List Char} (hname : isIdentifier name.toList = true)
      (hbefore : gap before) (hafter : gap after) (hne : after ≠ []) :
      Written (.whole name) ('*' :: (before ++ 'a' :: 's' :: (after ++ name.toList)))
  | listed {specifiers : List Specifier} {inside : List Char} (h : ListWritten gap specifiers inside) :
      Written (.listed specifiers) ('\x7b' :: (inside ++ ['\x7d']))

inductive Clause.Written : Clause → List Char → Prop
  | default {name : String} (hname : isIdentifier name.toList = true) : Written ⟨some name, none⟩ name.toList
  | members {members : Members} {text : List Char} (h : members.Written gap text) :
      Written ⟨none, some members⟩ text
  | both {name : String} {members : Members} {front back text : List Char}
      (hname : isIdentifier name.toList = true) (hfront : gap front) (hback : gap back)
      (h : members.Written gap text) :
      Written ⟨some name, some members⟩ (name.toList ++ (front ++ ',' :: (back ++ text)))

end

/-- A text writes a clause with comments and blanks between its parts and around them. -/
def Clause.WrittenIn (clause : Clause) (text : List Char) : Prop :=
  ∃ front core back, text = front ++ (core ++ back) ∧ Layout front ∧ clause.Written Layout core ∧ LastLayout back

/-! ## Identifiers -/

theorem exists_cons_of_isIdentifier {text : List Char} (h : isIdentifier text = true) :
    ∃ c more, text = c :: more ∧ isNameStart c = true ∧ ∀ d ∈ more, isNameRest d = true := by
  obtain ⟨answer, hrun⟩ := Option.isSome_iff_exists.1 h
  obtain ⟨part, rest, captured, htext, hfits, hend⟩ := Pattern.fits_of_run hrun
  obtain ⟨a, b, rfl, ⟨c, rfl, hc⟩, -, hmore⟩ : Pattern.name.Fits [] part rest := hfits
  obtain rfl : rest = [] := by
    by_contra hrest
    simp [Pattern.after, hrest] at hend
  exact ⟨c, b, by simpa [Spot.start] using htext, hc, hmore⟩

theorem isIdentifier_cons {c : Char} {more : List Char} (hc : isNameStart c = true)
    (hmore : ∀ d ∈ more, isNameRest d = true) : isIdentifier (c :: more) = true := by
  have hfits : Pattern.name.Fits [] (c :: more) [] := ⟨[c], more, rfl, ⟨c, rfl, hc⟩, Nat.zero_le _, hmore⟩
  rw [isIdentifier, Pattern.matchesAll, Spot.start, ← List.append_nil (c :: more)]
  exact Pattern.isSome_run_of_fits hfits fun _ => rfl

theorem isNameRest_of_isNameStart {c : Char} (h : isNameStart c = true) : isNameRest c = true := by
  simp only [isNameStart, isNameRest, Bool.or_eq_true, beq_iff_eq] at h ⊢
  rcases h with (halpha | rfl) | rfl
  · exact .inl (isWord_of_isAlpha halpha)
  · exact .inl (by decide)
  · exact .inr rfl

theorem isNameRest_of_mem {text : List Char} (h : isIdentifier text = true) : ∀ c ∈ text, isNameRest c = true := by
  obtain ⟨c, more, rfl, hc, hmore⟩ := exists_cons_of_isIdentifier h
  exact List.forall_mem_cons.2 ⟨isNameRest_of_isNameStart hc, hmore⟩

theorem isBlank_eq_false_of_isNameRest {c : Char} (h : isNameRest c = true) : isBlank c = false := by
  simp only [isNameRest, Bool.or_eq_true, beq_iff_eq] at h
  rcases h with hword | rfl
  · exact isBlank_eq_false_of_isWord hword
  · decide

theorem not_mem_identifier {text : List Char} (h : isIdentifier text = true) {c : Char} (hc : isNameRest c = false) :
    c ∉ text := fun hmem => ne_of_passes (isNameRest_of_mem h c hmem) hc rfl

theorem not_isBlank_of_mem_identifier {text : List Char} (h : isIdentifier text = true) :
    ∀ c ∈ text, isBlank c = false := fun c hc => isBlank_eq_false_of_isNameRest (isNameRest_of_mem h c hc)

theorem identifier_ne_nil {text : List Char} (h : isIdentifier text = true) : text ≠ [] := by
  obtain ⟨c, more, rfl, -⟩ := exists_cons_of_isIdentifier h
  exact List.cons_ne_nil c more

/-! ## Comments between the parts -/

namespace Specifier

variable {specifier : Specifier} {text : List Char}

theorem Bare.exists_uncomments (h : specifier.Bare Layout text) :
    ∃ out, specifier.Bare Blanks out ∧ (text = specifier.imported.toList → out = text) ∧ Uncomments text out := by
  have hname {name : List Char} (hname : isIdentifier name = true) : Uncomments name name :=
    uncomments_self (not_mem_identifier hname (by decide))
  cases h with
  | plain hplain => exact ⟨_, .plain hplain, fun _ => rfl, hname hplain⟩
  | @aliased imported name before after himported hgiven hbefore hne hafter hne' =>
      obtain ⟨before', hblanks, hsome, hout⟩ := hbefore.exists_uncomments
      obtain ⟨after', hblanks', hsome', hout'⟩ := hafter.exists_uncomments
      have hword : Uncomments ['a', 's'] ['a', 's'] := uncomments_self (by decide)
      exact ⟨_, .aliased himported hgiven hblanks (hsome hne) hblanks' (hsome' hne'), by simp,
        (hname himported).append (hout.append (hword.append (hout'.append (hname hgiven))))⟩

theorem Written.exists_uncomments (h : specifier.Written Layout text) :
    ∃ out, specifier.Written Blanks out ∧ Uncomments text out := by
  cases h with
  | value h htype =>
      obtain ⟨out, hbare, hsame, hout⟩ := h.exists_uncomments
      exact ⟨out, .value hbare (htype.imp_right fun htext => (hsame htext).trans htext), hout⟩
  | marked hspace h =>
      obtain ⟨blanks, hblanks, -, hspace'⟩ := hspace.exists_uncomments
      obtain ⟨out, hbare, -, hout⟩ := h.exists_uncomments
      have hword : Uncomments "type ".toList "type ".toList := uncomments_self (by decide)
      exact ⟨_, .marked hblanks hbare, hword.append (hspace'.append hout)⟩

end Specifier

theorem ListWritten.exists_uncomments {specifiers : List Specifier} {text : List Char}
    (h : ListWritten Layout specifiers text) : ∃ out, ListWritten Blanks specifiers out ∧ Uncomments text out := by
  induction h with
  | none hspace =>
      obtain ⟨blanks, hblanks, -, hout⟩ := hspace.exists_uncomments
      exact ⟨blanks, .none hblanks, hout⟩
  | last hfront h hback =>
      obtain ⟨front', hblanks, -, hfront'⟩ := hfront.exists_uncomments
      obtain ⟨out, hwritten, hout⟩ := h.exists_uncomments
      obtain ⟨back', hblanks', -, hback'⟩ := hback.exists_uncomments
      exact ⟨_, .last hblanks hwritten hblanks', hfront'.append (hout.append hback')⟩
  | more hfront h hback _ ih =>
      obtain ⟨front', hblanks, -, hfront'⟩ := hfront.exists_uncomments
      obtain ⟨out, hwritten, hout⟩ := h.exists_uncomments
      obtain ⟨back', hblanks', -, hback'⟩ := hback.exists_uncomments
      obtain ⟨rest', hrest, hrest'⟩ := ih
      have hcomma : Uncomments [','] [','] := uncomments_self (by decide)
      exact ⟨_, .more hblanks hwritten hblanks' hrest,
        hfront'.append (hout.append (hback'.append (hcomma.append hrest')))⟩

theorem Members.Written.exists_uncomments {members : Members} {text : List Char} (h : members.Written Layout text) :
    ∃ out, members.Written Blanks out ∧ Uncomments text out := by
  cases h with
  | @whole name before after hname hbefore hafter hne =>
      obtain ⟨before', hblanks, -, hbefore'⟩ := hbefore.exists_uncomments
      obtain ⟨after', hblanks', hsome, hafter'⟩ := hafter.exists_uncomments
      have hstar : Uncomments ['*'] ['*'] := uncomments_self (by decide)
      have hword : Uncomments ['a', 's'] ['a', 's'] := uncomments_self (by decide)
      exact ⟨_, .whole hname hblanks hblanks' (hsome hne), hstar.append (hbefore'.append (hword.append
        (hafter'.append (uncomments_self (not_mem_identifier hname (by decide))))))⟩
  | listed h =>
      obtain ⟨inside', hlist, hinside⟩ := h.exists_uncomments
      have hopen : Uncomments ['\x7b'] ['\x7b'] := uncomments_self (by decide)
      have hclose : Uncomments ['\x7d'] ['\x7d'] := uncomments_self (by decide)
      exact ⟨_, .listed hlist, hopen.append (hinside.append hclose)⟩

theorem Clause.Written.exists_uncomments {clause : Clause} {text : List Char} (h : clause.Written Layout text) :
    ∃ out, clause.Written Blanks out ∧ Uncomments text out := by
  have hword {name : List Char} (hname : isIdentifier name = true) : Uncomments name name :=
    uncomments_self (not_mem_identifier hname (by decide))
  cases h with
  | default hname => exact ⟨_, .default hname, hword hname⟩
  | members h =>
      obtain ⟨out, hmembers, hout⟩ := h.exists_uncomments
      exact ⟨out, .members hmembers, hout⟩
  | both hname hfront hback h =>
      obtain ⟨front', hblanks, -, hfront'⟩ := hfront.exists_uncomments
      obtain ⟨back', hblanks', -, hback'⟩ := hback.exists_uncomments
      obtain ⟨out, hmembers, hout⟩ := h.exists_uncomments
      have hcomma : Uncomments [','] [','] := uncomments_self (by decide)
      exact ⟨_, .both hname hblanks hblanks' hmembers,
        (hword hname).append (hfront'.append (hcomma.append (hback'.append hout)))⟩

end ComponentBuilder.Preview
