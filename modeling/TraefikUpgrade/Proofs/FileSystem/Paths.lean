/-
# Paths below a directory

A path that was joined with a name is followed by the steps of the directory and then the name, it starts
where the directory starts, the name is its last component and the directory is its parent. A slash or a
dot at the end of the directory's path does not count.

Key definitions: `IsEntryName`, `Path.way`.
Key theorems: `Path.way_join`, `Path.steps_join`, `Path.isAbsolute_join`, `Path.fileName?_join`,
`Path.parent?_join`.
-/
import TraefikUpgrade.FileSystem.Tree

/-! ### Texts with separators -/

namespace TraefikUpgrade.Text

theorem splitAll_of_notMem {sep : Char} {cs : List Char} (h : sep ∉ cs) : splitAll sep cs = [cs] := by
  induction cs with
  | nil => rfl
  | cons c cs ih =>
    rw [List.mem_cons, not_or] at h
    rw [splitAll, if_neg (Ne.symm h.1), ih h.2]

theorem splitAll_append (sep : Char) (cs ds : List Char) :
    splitAll sep (cs ++ sep :: ds) = splitAll sep cs ++ splitAll sep ds := by
  induction cs with
  | nil => simp [splitAll]
  | cons c cs ih =>
    rw [List.cons_append, splitAll, splitAll, ih]
    split
    · rfl
    · cases h : splitAll sep cs with
      | nil => exact absurd h (splitAll_ne_nil sep cs)
      | cons part parts => rfl

theorem notMem_of_mem_splitAll {sep : Char} {cs part : List Char} (h : part ∈ splitAll sep cs) :
    sep ∉ part := by
  induction cs generalizing part with
  | nil => simp [splitAll] at h; simp [h]
  | cons c cs ih =>
    rw [splitAll] at h
    split at h
    · rcases List.mem_cons.1 h with rfl | h
      · exact List.not_mem_nil
      · exact ih h
    · next hc =>
      split at h
      · next he => exact absurd he (splitAll_ne_nil sep cs)
      · next first parts he =>
        rcases List.mem_cons.1 h with rfl | h
        · rw [List.mem_cons, not_or]
          exact ⟨Ne.symm hc, ih (he ▸ List.mem_cons_self ..)⟩
        · exact ih (he ▸ List.mem_cons_of_mem _ h)

theorem mem_splitAll_of_mem {sep c : Char} {cs : List Char} (h : c ∈ cs) (hc : c ≠ sep) :
    ∃ part ∈ splitAll sep cs, c ∈ part := by
  induction cs with
  | nil => cases h
  | cons d cs ih =>
    rw [splitAll]
    split
    · next hd =>
      rcases List.mem_cons.1 h with rfl | h
      · exact absurd hd hc
      · obtain ⟨part, hpart, hm⟩ := ih h
        exact ⟨part, List.mem_cons_of_mem _ hpart, hm⟩
    · cases hs : splitAll sep cs with
      | nil => exact absurd hs (splitAll_ne_nil sep cs)
      | cons first parts =>
        rcases List.mem_cons.1 h with rfl | h
        · exact ⟨_, List.mem_cons_self .., List.mem_cons_self ..⟩
        · obtain ⟨part, hpart, hm⟩ := ih h
          rw [hs] at hpart
          rcases List.mem_cons.1 hpart with rfl | hpart
          · exact ⟨_, List.mem_cons_self .., List.mem_cons_of_mem _ hm⟩
          · exact ⟨part, List.mem_cons_of_mem _ hpart, hm⟩

/-- The length of parts with a separator behind each of them. -/
def partsLength : List (List Char) → Nat
  | [] => 0
  | part :: parts => part.length + 1 + partsLength parts

theorem partsLength_concat (parts : List (List Char)) (part : List Char) :
    partsLength (parts ++ [part]) = partsLength parts + part.length + 1 := by
  induction parts with
  | nil =>
    simp only [List.nil_append, partsLength]
    omega
  | cons first parts ih =>
    rw [List.cons_append, partsLength, partsLength, ih]
    omega

theorem partsLength_splitAll (sep : Char) (cs : List Char) :
    partsLength (splitAll sep cs) = cs.length + 1 := by
  induction cs with
  | nil => rfl
  | cons c cs ih =>
    rw [splitAll]
    split
    · simp only [partsLength, ih, List.length_nil, List.length_cons]
      omega
    · cases h : splitAll sep cs with
      | nil => exact absurd h (splitAll_ne_nil sep cs)
      | cons part parts =>
        rw [h] at ih
        simp only [partsLength, List.length_cons] at ih ⊢
        omega

end TraefikUpgrade.Text

namespace TraefikUpgrade.FileSystem

open Text

/-! ### Names -/

/-- Whether a text is the name of something in a directory. -/
structure IsEntryName (s : String) : Prop where
  ne_empty : s ≠ ""
  ne_here : s ≠ "."
  ne_up : s ≠ ".."
  slash_notMem : '/' ∉ s.toList

theorem IsEntryName.toList_ne {s : String} (h : IsEntryName s) :
    s.toList ≠ [] ∧ s.toList ≠ ['.'] ∧ s.toList ≠ ['.', '.'] := by
  have hne : ∀ t : String, s ≠ t → s.toList ≠ t.toList := fun t ht he => ht (String.toList_inj.1 he)
  exact ⟨hne "" h.ne_empty, hne "." h.ne_here, hne ".." h.ne_up⟩

theorem IsEntryName.splitAll {s : String} (h : IsEntryName s) : splitAll '/' s.toList = [s.toList] :=
  splitAll_of_notMem h.slash_notMem

/-- A name is a component of its own. -/
theorem spansFrom_name {s : String} (h : IsEntryName s) (start : Nat) (first : Bool) :
    Path.spansFrom start first [s.toList] = [(.name s, start + s.toList.length)] := by
  obtain ⟨h₀, h₁, h₂⟩ := h.toList_ne
  unfold Path.spansFrom
  dsimp only
  split
  · next he => exact absurd he h₀
  · next he => exact absurd he h₁
  · next he => exact absurd he h₂
  · simp [Path.spansFrom]

theorem getLast?_spansFrom {s : String} (h : IsEntryName s) (start : Nat) (first : Bool)
    (parts : List (List Char)) :
    (Path.spansFrom start first (parts ++ [s.toList])).getLast? =
      some (.name s, start + partsLength parts + s.toList.length) := by
  induction parts generalizing start first with
  | nil => rw [List.nil_append, spansFrom_name h]; rfl
  | cons part parts ih =>
    have ih := ih (start + part.length + 1) false
    have hlength : start + part.length + 1 + partsLength parts + s.toList.length =
        start + partsLength (part :: parts) + s.toList.length := by
      rw [partsLength]
      omega
    rw [hlength] at ih
    have hcons : ∀ span : Component × Nat, (span :: Path.spansFrom (start + part.length + 1) false
        (parts ++ [s.toList])).getLast? = some (.name s, start + partsLength (part :: parts) +
          s.toList.length) := fun span => by rw [List.getLast?_cons, ih]; rfl
    rw [List.cons_append]
    unfold Path.spansFrom
    dsimp only
    split
    · split
      · exact hcons _
      · exact ih
    · split
      · exact hcons _
      · exact ih
    · exact hcons _
    · exact hcons _

theorem spansFrom_concat {s : String} (h : IsEntryName s) (start : Nat) (first : Bool)
    {parts : List (List Char)} (hp : first = true → parts ≠ [[]]) :
    Path.spansFrom start first (parts ++ [s.toList]) =
      Path.spansFrom start first parts ++ [(.name s, start + partsLength parts + s.toList.length)] := by
  induction parts generalizing start first with
  | nil => rw [List.nil_append, spansFrom_name h]; rfl
  | cons part parts ih =>
    have ih := ih (start + part.length + 1) false nofun
    have hlength : start + part.length + 1 + partsLength parts + s.toList.length =
        start + partsLength (part :: parts) + s.toList.length := by
      rw [partsLength]
      omega
    rw [hlength] at ih
    rw [List.cons_append]
    unfold Path.spansFrom
    dsimp only
    rw [ih]
    split
    · -- An empty part counts as the root if it is the first of several, so it must not be the only one.
      have hempty : (first && !(parts ++ [s.toList]).isEmpty) = (first && !parts.isEmpty) := by
        cases first
        · rfl
        · cases parts
          · exact absurd rfl (hp rfl)
          · rfl
      rw [hempty]
      split <;> rfl
    · split <;> rfl
    · rfl
    · rfl

/-! ### Joined paths -/

namespace Path

/-- The steps to what is in a directory: those to the directory, without a last one that stays. -/
def way (p : Path) : List String := ((splitAll '/' p.text.toList).map String.ofList).filter (· != "")

theorem steps_eq (p : Path) : steps p = p.way ∨ steps p = p.way ++ ["."] := by
  unfold steps way
  dsimp only
  split
  · exact .inr rfl
  · exact .inl rfl

theorem steps_ne_nil (p : Path) : steps p ≠ [] := by
  unfold steps
  dsimp only
  split
  · simp
  · next hlast =>
    intro hnil
    cases h : ((splitAll '/' p.text.toList).map String.ofList).getLast? with
    | none => simp [splitAll_ne_nil] at h
    | some part =>
      have hm := List.mem_of_getLast? h
      have hempty : part = "" := by simpa using List.filter_eq_nil_iff.1 hnil part hm
      exact hlast (hempty ▸ h)

/-- What stands before a name in a joined path. -/
def lead (p : Path) : List Char :=
  match p.text.toList.getLast? with
  | none => []
  | some c => if c = '/' then p.text.toList else p.text.toList ++ ['/']

variable {p : Path} {s : String}

theorem head?_ne_slash (h : IsEntryName s) : s.toList.head? ≠ some '/' :=
  fun he => h.slash_notMem (List.mem_of_mem_head? he)

theorem toList_join (h : IsEntryName s) : (p.join s).text.toList = p.lead ++ s.toList := by
  have hrelative : isAbsolute ⟨s⟩ = false := by
    simpa [isAbsolute] using head?_ne_slash h
  unfold join lead
  rw [hrelative]
  cases p.text.toList.getLast? with
  | none => rfl
  | some c =>
    by_cases hc : c = '/'
    · simp [hc]
    · simp [hc]

/-- Either nothing stands before the name, or the parts up to a slash. -/
theorem lead_cases (p : Path) : (p.lead = [] ∧ p.text.toList = []) ∨
    ∃ cs, p.lead = cs ++ ['/'] ∧ (p.text.toList = cs ∨ p.text.toList = cs ++ ['/']) := by
  unfold lead
  cases hlast : p.text.toList.getLast? with
  | none => exact .inl ⟨rfl, List.getLast?_eq_none_iff.1 hlast⟩
  | some c =>
    dsimp only
    split
    · next hc =>
      obtain ⟨cs, hcs⟩ := List.getLast?_eq_some_iff.1 hlast
      rw [hc] at hcs
      exact .inr ⟨cs, hcs, .inr hcs⟩
    · exact .inr ⟨_, rfl, .inl rfl⟩

theorem way_join (h : IsEntryName s) : (p.join s).way = p.way ++ [s] := by
  have hname : (List.map String.ofList [s.toList]).filter (· != "") = [s] := by
    simp [String.ofList_toList, h.ne_empty]
  unfold way
  rw [toList_join h]
  rcases p.lead_cases with ⟨hlead, htext⟩ | ⟨cs, hlead, htext⟩
  · rw [hlead, htext, List.nil_append, h.splitAll, hname]
    rfl
  · have hway : ((splitAll '/' p.text.toList).map String.ofList).filter (· != "") =
        ((splitAll '/' cs).map String.ofList).filter (· != "") := by
      rcases htext with htext | htext
      · rw [htext]
      · rw [htext, splitAll_append]
        simp [splitAll]
    rw [hlead, List.append_assoc, List.singleton_append, splitAll_append, h.splitAll, hway,
      List.map_append, List.filter_append, hname]

theorem getLast?_splitAll_join (h : IsEntryName s) :
    (splitAll '/' (p.join s).text.toList).getLast? = some s.toList := by
  rw [toList_join h]
  rcases p.lead_cases with ⟨hlead, -⟩ | ⟨cs, hlead, -⟩
  · rw [hlead, List.nil_append, h.splitAll]
    rfl
  · rw [hlead, List.append_assoc, List.singleton_append, splitAll_append, h.splitAll,
      List.getLast?_append]
    rfl

theorem steps_join (h : IsEntryName s) : steps (p.join s) = p.way ++ [s] := by
  rw [← way_join h]
  unfold steps way
  dsimp only
  rw [List.getLast?_map, getLast?_splitAll_join h]
  split
  · next he =>
    have he : String.ofList s.toList = "" := Option.some.inj he
    rw [String.ofList_toList] at he
    exact absurd he h.ne_empty
  · rfl

theorem isAbsolute_join (h : IsEntryName s) : (p.join s).isAbsolute = p.isAbsolute := by
  unfold isAbsolute
  rw [toList_join h]
  rcases p.lead_cases with ⟨hlead, htext⟩ | ⟨cs, hlead, htext⟩
  · rw [hlead, htext, List.nil_append]
    simpa using head?_ne_slash h
  · rw [hlead]
    cases cs with
    | nil =>
      -- The path of the directory is a slash, since an empty one leaves nothing before the name.
      rcases htext with htext | htext
      · rw [lead, htext] at hlead
        cases hlead
      · rw [htext]
        rfl
    | cons c cs => rcases htext with htext | htext <;> rw [htext] <;> rfl

theorem fileName?_join (h : IsEntryName s) : (p.join s).fileName? = some s := by
  obtain ⟨parts, hparts⟩ := List.getLast?_eq_some_iff.1 (getLast?_splitAll_join (p := p) h)
  unfold fileName? components spans
  rw [hparts, List.getLast?_map, getLast?_spansFrom h]
  rfl

theorem toList_join_ne (h : IsEntryName s) : (p.join s).text.toList ≠ [] := by
  rw [toList_join h]
  exact List.append_ne_nil_of_right_ne_nil _ h.toList_ne.1

theorem lead_join (h : IsEntryName s) : (p.join s).lead = (p.join s).text.toList ++ ['/'] := by
  have hlast : (p.join s).text.toList.getLast? = s.toList.getLast? := by
    rw [toList_join h, List.getLast?_append]
    cases hs : s.toList.getLast? with
    | none => exact absurd (List.getLast?_eq_none_iff.1 hs) h.toList_ne.1
    | some c => rfl
  unfold lead
  rw [hlast]
  cases hs : s.toList.getLast? with
  | none => exact absurd (List.getLast?_eq_none_iff.1 hs) h.toList_ne.1
  | some c =>
    have hc : c ≠ '/' := by
      rintro rfl
      exact h.slash_notMem (List.mem_of_mem_getLast? hs)
    dsimp only
    rw [if_neg hc]

/-- The parent of what is in a directory, if the directory itself is in another one. -/
theorem parent?_join {s' : String} (h : IsEntryName s) (h' : IsEntryName s') :
    ((p.join s).join s').parent? = some (p.join s) := by
  have htext : ((p.join s).join s').text.toList = (p.join s).text.toList ++ '/' :: s'.toList := by
    rw [toList_join h', lead_join h, List.append_assoc]
    rfl
  have hparts : splitAll '/' (p.join s).text.toList ≠ [[]] := by
    intro he
    have hlast := getLast?_splitAll_join (p := p) h
    rw [he] at hlast
    exact h.toList_ne.1 (Option.some.inj hlast).symm
  obtain ⟨parts, hsplit⟩ := List.getLast?_eq_some_iff.1 (getLast?_splitAll_join (p := p) h)
  have hlength : partsLength parts + s.toList.length = (p.join s).text.toList.length := by
    have hlength := partsLength_splitAll '/' (p.join s).text.toList
    rw [hsplit, partsLength_concat] at hlength
    omega
  have hspans : ((p.join s).join s').spans.dropLast = (p.join s).spans := by
    unfold spans
    rw [htext, splitAll_append, h'.splitAll, spansFrom_concat h' 0 true fun _ => hparts,
      List.dropLast_concat]
  have hlast : (p.join s).spans.reverse.head? = some (.name s, (p.join s).text.toList.length) := by
    rw [List.head?_reverse, spans, hsplit, getLast?_spansFrom h, Nat.zero_add, hlength]
  obtain ⟨spans, hs⟩ := List.head?_eq_some_iff.1 hlast
  unfold parent? parents
  dsimp only
  rw [hspans, hs, List.map_cons, htext, List.take_append_of_le_length (Nat.le_refl _),
    List.take_length, String.ofList_toList]
  split <;> rfl

end Path

/-- A dot and what follows it is the extension of a name that begins before the dot. -/
theorem extension?_append {name suffix : String} (hn : name ≠ "") (hs : '.' ∉ suffix.toList) :
    extension? (name ++ "." ++ suffix) = some suffix := by
  have hreverse : (name ++ "." ++ suffix).toList.reverse =
      suffix.toList.reverse ++ '.' :: name.toList.reverse := by
    simp
  have htail : (suffix.toList.reverse ++ '.' :: name.toList.reverse).takeWhile (· != '.') =
      suffix.toList.reverse := by
    rw [List.takeWhile_append_of_pos]
    · simp
    · intro c hc
      rw [bne_iff_ne]
      rintro rfl
      exact hs (List.mem_reverse.1 hc)
  have hname : name.toList.reverse ≠ [] := by
    rw [Ne, List.reverse_eq_nil_iff]
    exact fun he => hn (String.toList_inj.1 he)
  unfold extension?
  rw [hreverse, htail]
  dsimp only
  rw [List.drop_left]
  cases h : name.toList.reverse with
  | nil => exact absurd h hname
  | cons c cs => simp

end TraefikUpgrade.FileSystem
