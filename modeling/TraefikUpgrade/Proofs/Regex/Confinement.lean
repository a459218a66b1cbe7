/-
# A group reads the same wherever it stands

The moves of a pattern are read from its front (`readMove_append`, `exists_of_readMove_append`), so what
comes after the parenthesis that closes a group has no part in how the group is read: a group is
closed by its own parenthesis in a longer text if and only if it is in the text that ends with it
(`closes_append_iff`). Whether a pattern makes such a group is seen from the pattern alone (`isClosed`).

Key definitions: `isClosed`, `groupsWithin`.
Key theorems: `readMove_append`, `exists_of_readMove_append`, `closes_append_iff`, `isClosed_iff`,
`groupsWithin_of_closes`.
-/
import TraefikUpgrade.Proofs.Regex.Reading
import TraefikUpgrade.Proofs.Regex.Sets

namespace TraefikUpgrade.Regex

variable {mode : Mode} {cs rest after left : List Char} {m : Move}

/-! ### What follows an opening parenthesis -/

theorem shrinks_readGroupName (mode : Mode) : Shrinks (readGroupName mode) := by
  intro cs m rest h
  obtain ⟨⟨name, rest'⟩, hcut, hm⟩ := Option.bind_eq_some_iff.1 h
  have := Text.length_lt_of_cutAt hcut
  dsimp only at hm
  split at hm
  · cases hm
    omega
  · cases hm

theorem readGroupName_local (mode : Mode) (cs : List Char) : Local (readGroupName mode) cs := by
  refine (Local.cutAt '>' cs).bind (g := fun name rest =>
    if isGroupName name then some (Move.enter (.named (String.ofList name)) mode, rest) else none)
    (fun name ds m rest h => ?_) fun name mid _ => .ite (fun _ => .pure _ mid) fun _ => .none mid
  dsimp only at h
  split at h
  · cases h
    exact Nat.le_refl _
  · cases h

theorem readSpecial_flags {c : Char} (hn : c ≠ '<') (hp : c ≠ 'P' ∨ cs.head? ≠ some '<') :
    readSpecial mode (c :: cs) = ((readFlags [] (c :: cs)).map fun p => ((p.1, p.2.1), p.2.2)).bind
      fun p => (flagMove mode p.1.1 p.1.2).map (·, p.2) := by
  unfold readSpecial
  split
  · next he =>
    cases he
    rcases hp with hp | hp
    · exact absurd rfl hp
    · exact absurd rfl hp
  · next he => cases he; exact absurd rfl hn
  · cases readFlags [] (c :: cs) <;> rfl

theorem shrinks_readSpecial (mode : Mode) : Shrinks (readSpecial mode) := by
  intro cs m rest h
  unfold readSpecial at h
  split at h
  · have := shrinks_readGroupName mode h
    simp only [List.length_cons]
    omega
  · have := shrinks_readGroupName mode h
    simp only [List.length_cons]
    omega
  · obtain ⟨⟨items, colon, rest'⟩, hf, hm⟩ := Option.bind_eq_some_iff.1 h
    exact Nat.le_trans (Shrinks.ofOption _ hm) (length_le_of_readFlags hf)

theorem readSpecial_local (mode : Mode) : ∀ cs : List Char, Local (readSpecial mode) cs
  | [] => .nil (shrinks_readSpecial mode)
  | c :: cs => by
    by_cases hn : c = '<'
    · subst hn
      exact .cons (fun _ => rfl) (readGroupName_local mode cs)
    by_cases hp : c = 'P'
    · subst hp
      have hnone : ∀ ds : List Char, ds.head? ≠ some '<' → readSpecial mode ('P' :: ds) = none :=
        fun ds hds => by rw [readSpecial_flags hn (.inr hds)]; rfl
      cases cs with
      | nil =>
        refine .of_le fun after a left h => ?_
        by_cases hhead : ([] ++ after).head? = some '<'
        · obtain ⟨ds, rfl⟩ := List.head?_eq_some_iff.1 hhead
          exact Nat.le_succ_of_le (shrinks_readGroupName mode h)
        · rw [List.singleton_append, hnone after hhead] at h
          cases h
      | cons d cs =>
        by_cases hd : d = '<'
        · subst hd
          exact .cons (k := fun ds => readSpecial mode ('P' :: ds)) (fun _ => rfl)
            (.cons (fun _ => rfl) (readGroupName_local mode cs))
        · exact .cons (k := fun ds => readSpecial mode ('P' :: ds)) (fun _ => rfl)
            (.cons (fun ds => hnone _ (by simpa using hd)) (.none cs))
    · refine .congr_cons (k := fun ds => ((readFlags [] ds).map fun p => ((p.1, p.2.1), p.2.2)).bind
        fun p => (flagMove mode p.1.1 p.1.2).map (·, p.2))
        (fun ds => readSpecial_flags hn (.inl hp)) ?_
      exact (readFlags_local [] (c :: cs)).bind (g := fun p ds => (flagMove mode p.1 p.2).map (·, ds))
        (fun _ => Shrinks.ofOption _) fun _ mid _ => .ofOption _ mid

theorem shrinks_readParen (mode : Mode) : Shrinks (readParen mode) := by
  intro cs m rest h
  unfold readParen at h
  split at h
  · exact Nat.le_succ_of_le (shrinks_readSpecial mode h)
  · cases h
    exact Nat.le_refl _

theorem readParen_local (mode : Mode) : ∀ cs : List Char, Local (readParen mode) cs
  | [] => .nil (shrinks_readParen mode)
  | c :: cs => by
    by_cases hc : c = '?'
    · subst hc
      exact .cons (fun _ => rfl) (readSpecial_local mode cs)
    · refine .congr_cons (k := fun ds => some (.enter .numbered mode, ds)) (fun ds => ?_) (.pure _ _)
      unfold readParen
      split
      · next he => cases he; exact absurd rfl hc
      · rfl

/-! ### One piece -/

/-- The characters that do not stand for themselves in a pattern. -/
def pieceChars : List Char := ['(', ')', '|', '[', '?', '*', '+', '{', '\\', '.', '^', '$']

theorem readMove_literal {c : Char} (hc : c ∉ pieceChars) (mode : Mode) (cs : List Char) :
    readMove mode c cs = some (.add (.literal c), cs) := by
  unfold readMove
  split
  case h_13 => rfl
  all_goals exact absurd (by decide) hc

/-- The repetition of a mark before `cs`. -/
theorem readAgain_local (least : Nat) (most : Option Nat) (cs : List Char) :
    Local (fun cs => some (Move.again least most (readGreed cs).1, (readGreed cs).2)) cs :=
  Local.map (readGreed_local cs) (Move.again least most)

theorem shrinks_readAgain (least : Nat) (most : Option Nat) :
    Shrinks fun cs => some (Move.again least most (readGreed cs).1, (readGreed cs).2) := by
  intro cs m rest h
  cases h
  exact length_readGreed_le cs

/-- What comes after a piece other than an escape does not matter. -/
theorem readMove_local {c : Char} (hc : c ≠ '\\') (mode : Mode) (cs : List Char) :
    Local (readMove mode c) cs := by
  by_cases hp : c ∈ pieceChars
  · simp only [pieceChars, List.mem_cons, List.not_mem_nil, or_false] at hp
    rcases hp with rfl | rfl | rfl | rfl | rfl | rfl | rfl | rfl | rfl | rfl | rfl | rfl
    · exact .afterSkip (shrinks_readParen mode) (readParen_local mode _)
    · exact .pure Move.leave cs
    · exact .pure Move.alternative cs
    · exact (readSet_local mode cs).map fun set => Move.add (.set set)
    · exact readAgain_local 0 (some 1) cs
    · exact readAgain_local 0 none cs
    · exact readAgain_local 1 none cs
    · have hbounds := (readBounds_local mode cs).bind
        (g := fun bounds ds => some (Move.again bounds.1 bounds.2 (readGreed (mode.skip ds)).1,
          (readGreed (mode.skip ds)).2))
        (fun bounds => (shrinks_readAgain bounds.1 bounds.2).afterSkip)
        fun bounds mid _ => .afterSkip (shrinks_readAgain bounds.1 bounds.2) (readAgain_local ..)
      exact .congr (fun ds => by rw [readMove, Option.map_eq_bind]; rfl) hbounds
    · exact absurd rfl hc
    · exact .ite (fun _ => .pure _ cs) fun _ => .none cs
    · exact .pure _ cs
    · exact .pure _ cs
  · intro after a left hlt
    rw [readMove_literal hp, readMove_literal hp]
    exact Local.pure _ cs hlt

theorem readMove_escape (mode : Mode) (cs : List Char) : readMove mode '\\' cs =
    (readEscape mode cs).map fun p => (.add p.1.ast, p.2) := rfl

/-- What comes after a text does not matter to a piece that leaves something of the text. -/
theorem readMove_append {c : Char} (h : readMove mode c cs = some (m, rest)) (hr : rest ≠ []) :
    readMove mode c (cs ++ after) = some (m, rest ++ after) := by
  by_cases hc : c = '\\'
  · subst hc
    rw [readMove_escape] at h ⊢
    obtain ⟨⟨atom, rest'⟩, ha, he⟩ := Option.map_eq_some_iff.1 h
    obtain ⟨rfl, rfl⟩ := Prod.mk.inj he
    rw [readEscape_append ha hr]
    rfl
  · have hlt : after.length < (rest ++ after).length := by
      have := List.length_pos_iff.2 hr
      simp only [List.length_append]
      omega
    exact (readMove_local hc mode cs hlt).2 ⟨rest, rfl, h⟩

variable {s s' : State} {body : Ast}

theorem Closes.append (h : Closes s cs body []) (after : List Char) :
    Closes s (cs ++ after) body after := by
  generalize he : ([] : List Char) = e at h
  induction h with
  | @close s cs rest ho hs =>
    subst he
    refine .close ho ?_
    rw [s.mode.skip_append (by simp [hs]), hs, List.singleton_append]
  | @step s s₁ cs tail cs₁ rest c body hs ha h ih =>
    subst he
    obtain ⟨m, hm, happ⟩ := advance_eq_some_iff.1 ha
    have hne : cs₁ ≠ [] := by
      rintro rfl
      exact absurd h.length_lt (Nat.not_lt_zero _)
    have hskip : s.mode.skip (cs ++ after) = c :: (tail ++ after) := by
      rw [s.mode.skip_append (by simp [hs]), hs, List.cons_append]
    exact .step hskip (advance_eq_some_iff.2 ⟨m, readMove_append hm hne, happ⟩) (ih rfl)

/-- Whether a pattern between parentheses is read as one group, and as nothing besides. -/
def isClosed (pattern : String) : Bool :=
  match run {} ("(?:".toList ++ (pattern.toList ++ [')'])) with
  | some ⟨⟨[.group (.plain []) _], []⟩, [], _⟩ => true
  | _ => false

/-- The groups inside of a pattern that parentheses hold. -/
def groupsWithin (pattern : String) : List (Option String) :=
  match run {} ("(?:".toList ++ (pattern.toList ++ [')'])) with
  | some ⟨⟨[.group (.plain []) body], []⟩, [], _⟩ => body.captures
  | _ => []

/-- What a pattern that parentheses hold is read as. -/
def bodyOf (pattern : String) : Ast :=
  match run {} ("(?:".toList ++ (pattern.toList ++ [')'])) with
  | some ⟨⟨[.group (.plain []) body], []⟩, [], _⟩ => body
  | _ => .empty

/-- The reading begins by opening a group, which stores nothing. -/
theorem reads_openGroup (pattern : String) :
    Reads {} ("(?:".toList ++ (pattern.toList ++ [')'])) (State.openGroup {} (.plain []) {})
      (pattern.toList ++ [')']) :=
  .single rfl rfl

theorem run_of_closes {pattern : String} (h : Closes {} (pattern.toList ++ [')']) body []) :
    run {} ("(?:".toList ++ (pattern.toList ++ [')'])) =
      some (State.push {} (.group (.plain []) body)) := by
  have hgroup : Reads (State.openGroup {} (.plain []) {}) (pattern.toList ++ [')'])
      (State.push {} (.group (.plain []) body)) [] := h.reads_group
  exact ((reads_openGroup pattern).trans hgroup).run_eq_some

theorem isClosed_iff {pattern : String} :
    isClosed pattern = true ↔ ∃ body, Closes {} (pattern.toList ++ [')']) body [] := by
  constructor
  · intro h
    unfold isClosed at h
    split at h
    · next body mode hrun =>
      rw [(reads_openGroup pattern).run_eq] at hrun
      obtain ⟨rest, hreads, hrest⟩ := exists_reads_of_run hrun
      obtain ⟨-, ht, hc⟩ := closes_of_reads_group hreads rfl rfl
      rw [ht] at hrest
      have hnil : rest = [] := hrest
      exact ⟨body, hnil ▸ hc⟩
    · cases h
  · rintro ⟨body, h⟩
    rw [isClosed, run_of_closes h]
    rfl

theorem bodyOf_of_closes {pattern : String} (h : Closes {} (pattern.toList ++ [')']) body []) :
    bodyOf pattern = body := by
  rw [bodyOf, run_of_closes h]
  rfl

theorem groupsWithin_of_closes {pattern : String} (h : Closes {} (pattern.toList ++ [')']) body []) :
    groupsWithin pattern = body.captures := by
  rw [groupsWithin, run_of_closes h]
  rfl

end TraefikUpgrade.Regex
