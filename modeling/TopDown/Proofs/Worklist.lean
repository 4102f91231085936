import TopDown.Proofs.Factoring

/-
  Factoring every nonterminal, one after the other.

  `RuleFactored` says what factoring one nonterminal does: it leaves alternatives that begin with
  different symbols, it touches no other nonterminal, and the tails it makes are declared last, with
  alternatives that are shorter than those they were split from.

  The tails have to be factored in turn. `Turn` is one turn of the list of names still to do: the
  first one is factored, and its tails are put at the end. `factorAll` goes through that list level
  by level, as many levels as the longest alternative has symbols, and one. Alternatives get shorter
  from one level to the next, so that is enough: `turns_factorAll` says that it takes the list to
  its end. What a turn keeps holds there (`factorAll_induction`).
-/

namespace TopDown

namespace Traced

variable {α β : Type}

theorem exists_ok_bind {x : Traced α} {f : α → Traced β} (first : ∃ a, x.outcome = .ok a)
    (second : ∀ a, ∃ b, (f a).outcome = .ok b) : ∃ b, (x >>= f).outcome = .ok b := by
  obtain ⟨a, ha⟩ := first
  obtain ⟨b, hb⟩ := second a
  exact ⟨b, outcome_bind_eq_ok.2 ⟨a, ha, hb⟩⟩

theorem exists_ok_foldlM {f : β → α → Traced β} (step : ∀ b a, ∃ c, (f b a).outcome = .ok c)
    (l : List α) (b : β) : ∃ c, (l.foldlM f b).outcome = .ok c := by
  induction l generalizing b with
  | nil => exact ⟨b, rfl⟩
  | cons a rest ih =>
    rw [List.foldlM_cons]
    exact exists_ok_bind (step b a) ih

end Traced

namespace Grammar

variable {g g' G G' last : Grammar} {name owner : String} {names tails before : List String}
  {alt : Alternative} {alts : List Alternative}

/-! ## One nonterminal -/

/-- The alternatives begin with different symbols, and one of them at most is empty. -/
def HeadsApart (alts : List Alternative) : Prop :=
  (alts.map List.head?).Nodup

theorem HeadsApart.concat (apart : HeadsApart alts)
    (new : ∀ other ∈ alts, alt.head? ≠ other.head?) : HeadsApart (alts ++ [alt]) := by
  rw [HeadsApart, List.map_append, List.nodup_append]
  refine ⟨apart, List.nodup_singleton _, ?_⟩
  intro head hhead last hlast same
  obtain ⟨other, hother, rfl⟩ := List.mem_map.1 hhead
  rw [List.map_singleton, List.mem_singleton] at hlast
  exact new other hother (hlast ▸ same.symm)

/-- There are alternatives, and each is shorter than one of those given. -/
def Shortened (wholes alts : List Alternative) : Prop :=
  alts ≠ [] ∧ ∀ alt ∈ alts, ∃ whole ∈ wholes, alt.length < whole.length

/-- `g'` is `g` with the alternatives of one nonterminal factored, and the tails made for it. -/
structure RuleFactored (g : Grammar) (name : String) (g' : Grammar) (tails : List String) :
    Prop where
  names : g'.nonterminals = g.nonterminals ++ tails
  same : ∀ n ∈ g.nonterminals, n ≠ name → g'.alternatives n = g.alternatives n
  apart : HeadsApart (g'.alternatives name)
  shortened : ∀ tail ∈ tails, Shortened (g.alternatives name) (g'.alternatives tail)

/-- How far the alternatives of a nonterminal of `g` have been joined. -/
structure Joined.Progress (g : Grammar) (owner : String) (acc : Joined) (todo : List Alternative) :
    Prop where
  known : acc.Known owner todo
  names : acc.grammar.nonterminals = g.nonterminals ++ acc.tails
  same : ∀ n ∈ g.nonterminals, acc.grammar.alternatives n = g.alternatives n
  apart : HeadsApart acc.alts
  todo_mem : ∀ alt ∈ todo, alt ∈ g.alternatives owner
  shortened : ∀ tail ∈ acc.tails,
    Shortened (g.alternatives owner) (acc.grammar.alternatives tail)

namespace Joined.Progress

variable {acc : Joined} {rest : List Alternative}

theorem start (declared : owner ∈ g.nonterminals) :
    Progress g owner ⟨g, [], []⟩ (Alternative.distinct (g.alternatives owner)) where
  known := known_start declared
  names := by rw [List.append_nil]
  same _ _ := rfl
  apart := List.nodup_nil
  todo_mem _ h := Alternative.mem_distinct.1 h
  shortened _ h := absurd h List.not_mem_nil

theorem keep (h : Progress g owner acc (alt :: rest)) (alone : alt = [] ∨ alike alt rest = []) :
    Progress g owner { acc with alts := acc.alts ++ [alt] } rest where
  known := h.known.keep alone
  names := h.names
  same := h.same
  apart := h.apart.concat fun other hother => h.known.apart other hother alt List.mem_cons_self
  todo_mem a ha := h.todo_mem a (List.mem_cons_of_mem alt ha)
  shortened := h.shortened

/-- What is left over after the common beginning is shorter by that beginning. -/
theorem shortened_leftOver (h : Progress g owner acc (alt :: rest)) (nonempty : alt ≠ []) :
    Shortened (g.alternatives owner) (leftOver alt rest) := by
  refine ⟨by simp, fun r hr => ?_⟩
  obtain ⟨member, hmem, whole⟩ := mem_leftOver.1 hr
  refine ⟨member, h.todo_mem member ?_, ?_⟩
  · rcases List.mem_cons.1 hmem with rfl | hmem
    · exact List.mem_cons_self
    · exact List.mem_cons_of_mem _ (mem_alike_or_unlike.2 (Or.inl hmem))
  · have front : 0 < (shared alt rest).length := List.length_pos_of_ne_nil (shared_ne_nil nonempty)
    rw [whole, List.length_append]
    omega

theorem join (h : Progress g owner acc (alt :: rest)) (nonempty : alt ≠ []) :
    Progress g owner (acc.join owner alt (alike alt rest)) (unlike alt rest) where
  known := h.known.join nonempty
  names := by
    rw [nonterminals_join, h.names, List.append_assoc]
    rfl
  same n hn := by
    have old : n ∈ acc.grammar.nonterminals := h.names ▸ List.mem_append_left _ hn
    rw [alternatives_join_of_ne (ne_of_mem_of_not_mem old nextTail_notMem), h.same n hn]
  apart := by
    refine h.apart.concat fun other hother => ?_
    rw [head?_shared nonempty]
    exact h.known.apart other hother alt List.mem_cons_self
  todo_mem a ha := by
    exact h.todo_mem a (List.mem_cons_of_mem _ (mem_alike_or_unlike.2 (Or.inr ha)))
  shortened tail htail := by
    rcases List.mem_append.1 htail with old | new
    · have declared : tail ∈ acc.grammar.nonterminals := h.names ▸ List.mem_append_right _ old
      rw [alternatives_join_of_ne (ne_of_mem_of_not_mem declared nextTail_notMem)]
      exact h.shortened tail old
    · obtain ⟨some, shorter⟩ := h.shortened_leftOver nonempty
      obtain rfl := List.mem_singleton.1 new
      obtain ⟨r, hr⟩ := List.exists_mem_of_ne_nil _ some
      rw [alternatives_join_tail]
      refine ⟨List.ne_nil_of_mem (Alternative.mem_distinct.2 hr), fun a ha => ?_⟩
      exact shorter a (Alternative.mem_distinct.1 ha)

end Joined.Progress

theorem ruleFactored (declared : name ∈ g.nonterminals)
    (h : (g.factorRule name).outcome = .ok (g', tails)) : RuleFactored g name g' tails := by
  unfold factorRule at h
  obtain ⟨joined, hjoined, h⟩ := Traced.outcome_bind_eq_ok.1 h
  cases h
  have whole : joined.Progress g name [] :=
    joinAlternatives_induction (P := fun acc todo => acc.Progress g name todo)
      (fun _ _ _ alone so_far => so_far.keep alone)
      (fun _ _ _ nonempty _ so_far => so_far.join nonempty) (.start declared) hjoined
  have kept : name ∈ joined.grammar.nonterminals := whole.known.owner_mem
  refine ⟨?_, ?_, ?_, ?_⟩
  · rw [nonterminals_setRule _ kept, whole.names]
  · intro n hn ne
    rw [alternatives_setRule_of_ne ne, whole.same n hn]
  · rw [alternatives_setRule_self]
    exact whole.apart
  · intro tail htail
    have nodup := joined.grammar.nodup_nonterminals
    rw [whole.names, List.nodup_append] at nodup
    have ne : tail ≠ name := (nodup.2.2 name declared tail htail).symm
    rw [alternatives_setRule_of_ne ne]
    exact whole.shortened tail htail

/-! ## Turns -/

/-- Names that are declared, without repetition. -/
structure Listed (g : Grammar) (names : List String) : Prop where
  nodup : names.Nodup
  declared : ∀ n ∈ names, n ∈ g.nonterminals

theorem listed_nonterminals (g : Grammar) : g.Listed g.nonterminals :=
  ⟨g.nodup_nonterminals, fun _ h => h⟩

/-- The tails are new, and can be put after the names that are left. -/
theorem RuleFactored.listed (h : RuleFactored g name g' tails) (listed : g.Listed (name :: names)) :
    g'.Listed (names ++ tails) := by
  have nodup := g'.nodup_nonterminals
  rw [h.names, List.nodup_append] at nodup
  have declared := fun n hn => listed.declared n (List.mem_cons_of_mem name hn)
  refine ⟨List.nodup_append.2 ⟨listed.nodup.of_cons, nodup.2.1, ?_⟩, ?_⟩
  · exact fun n hn => nodup.2.2 n (declared n hn)
  · intro n hn
    rw [h.names, List.mem_append]
    exact (List.mem_append.1 hn).imp_left (declared n)

/-- One turn of the list of names to do: the first one is factored, and the tails made for it go to
the end. -/
inductive Turn : Grammar × List String → Grammar × List String → Prop where
  | factor {g g' : Grammar} {name : String} {names tails : List String}
      (h : (g.factorRule name).outcome = .ok (g', tails)) :
      Turn (g, name :: names) (g', names ++ tails)

/-- Any number of turns. -/
def Turns : Grammar × List String → Grammar × List String → Prop :=
  Relation.ReflTransGen Turn

/-- What a turn keeps is kept by any number of turns. -/
theorem Turns.induction {P : Grammar → List String → Prop}
    (step : ∀ {G G' : Grammar} {name : String} {names tails : List String},
      G.Listed (name :: names) → RuleFactored G name G' tails →
      (G.factorRule name).outcome = .ok (G', tails) → P G (name :: names) → P G' (names ++ tails))
    {state state' : Grammar × List String} (h : Turns state state')
    (listed : state.1.Listed state.2) (start : P state.1 state.2) : P state'.1 state'.2 := by
  have kept : state'.1.Listed state'.2 ∧ P state'.1 state'.2 := by
    induction h with
    | refl => exact ⟨listed, start⟩
    | tail _ turn ih =>
      obtain ⟨factored⟩ := turn
      obtain ⟨listed, so_far⟩ := ih
      have rule := ruleFactored (listed.declared _ List.mem_cons_self) factored
      exact ⟨rule.listed listed, step listed rule factored so_far⟩
  exact kept.2

/-! ## Levels -/

/-- The alternatives of each of the names have fewer symbols than there are levels. -/
def Fits (g : Grammar) (names : List String) (levels : Nat) : Prop :=
  ∀ n ∈ names, ∃ most < levels, ∀ alt ∈ g.alternatives n, alt.length ≤ most

/-- What is left to do has not been touched. -/
theorem RuleFactored.alternatives_listed (h : RuleFactored g name g' tails)
    (listed : g.Listed (name :: names)) : ∀ n ∈ names, g'.alternatives n = g.alternatives n := by
  intro n hn
  refine h.same n (listed.declared n (List.mem_cons_of_mem name hn)) ?_
  rintro rfl
  exact (List.nodup_cons.1 listed.nodup).1 hn

/-- Tails fit into one level less than the nonterminal they were split from. -/
theorem RuleFactored.fits {levels : Nat} (h : RuleFactored g name g' tails)
    (fits : ∃ most < levels + 1, ∀ alt ∈ g.alternatives name, alt.length ≤ most) :
    g'.Fits tails levels := by
  intro tail htail
  obtain ⟨some, shorter⟩ := h.shortened tail htail
  obtain ⟨most, room, longest⟩ := fits
  have bound : ∀ alt ∈ g'.alternatives tail, alt.length < most := by
    intro alt halt
    obtain ⟨whole, hwhole, less⟩ := shorter alt halt
    have := longest whole hwhole
    omega
  obtain ⟨alt, halt⟩ := List.exists_mem_of_ne_nil _ some
  have := bound alt halt
  refine ⟨most - 1, by omega, fun alt halt => ?_⟩
  have := bound alt halt
  omega

/-- The step of `factorRules`: one name is factored, and its tails are collected. -/
def factorNext (state : Grammar × List String) (name : String) :
    Traced (Grammar × List String) := do
  let (g, tails) ← state.1.factorRule name
  return (g, state.2 ++ tails)

theorem factorRules_eq_foldlM (g : Grammar) (names : List String) :
    g.factorRules names = names.foldlM factorNext (g, []) :=
  rfl

/-- Factoring a row of names is as many turns, and what is to do then fits into one level less. -/
theorem turns_factorRules {levels : Nat} (listed : g.Listed (names ++ before))
    (row : g.Fits names (levels + 1)) (next : g.Fits before levels)
    (h : (names.foldlM factorNext (g, before)).outcome = .ok (g', tails)) :
    Turns (g, names ++ before) (g', tails) ∧ g'.Listed tails ∧ g'.Fits tails levels := by
  induction names generalizing g before with
  | nil =>
    cases h
    exact ⟨.refl, listed, next⟩
  | cons name rest ih =>
    rw [List.foldlM_cons] at h
    obtain ⟨state, first, h⟩ := Traced.outcome_bind_eq_ok.1 h
    obtain ⟨⟨mid, made⟩, factored, first⟩ := Traced.outcome_bind_eq_ok.1 first
    cases first
    have rule := ruleFactored (listed.declared name List.mem_cons_self) factored
    have same : ∀ n ∈ rest ++ before, mid.alternatives n = g.alternatives n :=
      rule.alternatives_listed listed
    have onward : mid.Listed (rest ++ (before ++ made)) := by
      rw [← List.append_assoc]
      exact rule.listed listed
    have rowMid : mid.Fits rest (levels + 1) := by
      intro n hn
      rw [same n (List.mem_append_left _ hn)]
      exact row n (List.mem_cons_of_mem name hn)
    have nextMid : mid.Fits (before ++ made) levels := by
      intro n hn
      rcases List.mem_append.1 hn with old | new
      · rw [same n (List.mem_append_right _ old)]
        exact next n old
      · exact rule.fits (row name List.mem_cons_self) n new
    obtain ⟨turns, settled⟩ := ih onward rowMid nextMid h
    have turn : Turn (g, name :: (rest ++ before)) (mid, (rest ++ before) ++ made) :=
      .factor factored
    rw [List.append_assoc] at turn
    exact ⟨.head turn turns, settled⟩

/-- As many levels as the alternatives have symbols take the list to its end. -/
theorem turns_factorLevels {levels : Nat} (listed : g.Listed names) (fits : g.Fits names levels)
    (h : (factorLevels levels g names).outcome = .ok last) : Turns (g, names) (last, []) := by
  induction levels generalizing g names with
  | zero =>
    have none : names = [] := by
      refine List.eq_nil_iff_forall_not_mem.2 fun n hn => ?_
      obtain ⟨most, room, -⟩ := fits n hn
      omega
    subst none
    cases h
    exact .refl
  | succ levels ih =>
    unfold factorLevels at h
    split at h
    · next none =>
      subst none
      cases h
      exact .refl
    · obtain ⟨⟨mid, tails⟩, row, h⟩ := Traced.outcome_bind_eq_ok.1 h
      rw [factorRules_eq_foldlM] at row
      have nothing : g.Fits [] levels := fun _ h => absurd h List.not_mem_nil
      rw [← List.append_nil names] at listed ⊢
      obtain ⟨turns, listed, fits⟩ := turns_factorRules listed fits nothing row
      exact turns.trans (ih listed fits h)

theorem length_le_longestAlternative (h : alt ∈ g.alternatives name) :
    alt.length ≤ g.longestAlternative := by
  have bound : ∀ (lengths : List Nat) (start : Nat),
      start ≤ lengths.foldl max start ∧ ∀ n ∈ lengths, n ≤ lengths.foldl max start := by
    intro lengths
    induction lengths with
    | nil => exact fun start => ⟨le_rfl, fun n hn => absurd hn List.not_mem_nil⟩
    | cons first rest ih =>
      intro start
      obtain ⟨above, all⟩ := ih (max start first)
      refine ⟨(le_max_left _ _).trans above, fun n hn => ?_⟩
      rcases List.mem_cons.1 hn with rfl | hn
      · exact (le_max_right _ _).trans above
      · exact all n hn
  exact (bound _ 0).2 _ (List.mem_map.2 ⟨(name, alt), mem_productions.2 h, rfl⟩)

/-- Factoring all nonterminals goes through the list to its end. -/
theorem turns_factorAll (h : g.factorAll.outcome = .ok last) :
    Turns (g, g.nonterminals) (last, []) := by
  refine turns_factorLevels g.listed_nonterminals (fun n _ => ?_) h
  refine ⟨g.longestAlternative, Nat.lt_succ_self _, fun alt halt => ?_⟩
  exact length_le_longestAlternative halt

/-- What a turn keeps holds when all nonterminals have been factored. -/
theorem factorAll_induction {P : Grammar → List String → Prop} (start : P g g.nonterminals)
    (step : ∀ {G G' : Grammar} {name : String} {names tails : List String},
      G.Listed (name :: names) → RuleFactored G name G' tails →
      (G.factorRule name).outcome = .ok (G', tails) → P G (name :: names) → P G' (names ++ tails))
    (h : g.factorAll.outcome = .ok last) : P last [] :=
  (turns_factorAll h).induction step g.listed_nonterminals start

/-! ## The list comes to its end -/

theorem exists_joinAlternatives (owner : String) (alts : List Alternative) (acc : Joined) :
    ∃ acc', (joinAlternatives owner alts acc).outcome = .ok acc' := by
  match alts with
  | [] =>
    unfold joinAlternatives
    exact ⟨acc, rfl⟩
  | alt :: rest =>
    rw [joinAlternatives]
    split
    · exact exists_joinAlternatives owner rest _
    · exact Traced.exists_ok_bind ⟨(), rfl⟩ fun _ => exists_joinAlternatives owner _ _
termination_by alts.length
decreasing_by
  · exact Nat.lt_succ_of_le (List.length_filter_le _ _)
  · exact Nat.lt_succ_self _

theorem exists_factorAll (g : Grammar) : ∃ g', g.factorAll.outcome = .ok g' := by
  have rules : ∀ (G : Grammar) names, ∃ r, (G.factorRules names).outcome = .ok r := by
    intro G names
    refine Traced.exists_ok_foldlM (fun state name => ?_) names _
    refine Traced.exists_ok_bind ?_ fun _ => ⟨_, rfl⟩
    exact Traced.exists_ok_bind (exists_joinAlternatives ..) fun _ => ⟨_, rfl⟩
  have levels : ∀ n (G : Grammar) names, ∃ g', (factorLevels n G names).outcome = .ok g' := by
    intro n
    induction n with
    | zero => exact fun G names => ⟨G, rfl⟩
    | succ n ih =>
      intro G names
      unfold factorLevels
      split
      · exact ⟨G, rfl⟩
      · exact Traced.exists_ok_bind (rules G names) fun r => ih r.1 r.2
  exact levels _ g _

/-- A turn has one outcome. -/
theorem Turn.unique {state after other : Grammar × List String} (h : Turn state after)
    (h' : Turn state other) : other = after := by
  obtain ⟨first⟩ := h
  obtain ⟨second⟩ := h'
  have same := Except.ok.inj (second.symm.trans first)
  rw [Prod.mk.injEq] at same
  rw [same.1, same.2]

/-- Turns that come to the end of the list cannot go on for ever, for there are no other ones. -/
theorem acc_of_turns {state : Grammar × List String} (h : Turns state (last, [])) :
    Acc (flip Turn) state := by
  induction h using Relation.ReflTransGen.head_induction_on with
  | refl => exact ⟨_, fun after turn => by cases turn⟩
  | head turn _ ih => exact ⟨_, fun after other => turn.unique other ▸ ih⟩

/-- Factoring all nonterminals ends: there is no endless row of turns, and the turns come to the end
of the list with the grammar that `factorAll` returns. -/
theorem exists_turns_factorAll (g : Grammar) :
    Acc (flip Turn) (g, g.nonterminals) ∧
      ∃ last, g.factorAll.outcome = .ok last ∧ Turns (g, g.nonterminals) (last, []) := by
  obtain ⟨last, returned⟩ := exists_factorAll g
  have turns := turns_factorAll returned
  exact ⟨acc_of_turns turns, last, returned, turns⟩

end Grammar

end TopDown
