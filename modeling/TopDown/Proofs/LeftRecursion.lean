import TopDown.Analysis.LeftRecursion
import TopDown.Proofs.Exactness

/-
  Left recursion is found.

  Following links from some names comes to rest with a set of names that is closed under the links
  (`reachedFrom_closed`), and everything in it is reached by links
  (`exists_seed_of_mem_reachedFrom`). So a nonterminal is left recursive when a chain of leaders
  comes back to where it began (`mem_leftRecursive_iff`).

  Chains of leaders are what derivations leave at the front of a form: a nonterminal that comes
  first in something derived from another one is at the end of a chain from it
  (`leads_of_derives`), and what is at the end of a chain comes first in something derived
  (`derives_of_leads`).
-/

namespace TopDown

/-! ## Names reached by links -/

/-- A repetition until nothing changes is some number of rounds. -/
theorem stabilize_eq_iterate {σ : Type} [DecidableEq σ] (step : σ → σ) (bound : Nat) (x : σ) :
    ∃ rounds : Nat, stabilize step bound x = step^[rounds] x := by
  induction bound generalizing x with
  | zero => exact ⟨0, rfl⟩
  | succ bound ih =>
    unfold stabilize
    dsimp only
    split
    · exact ⟨0, rfl⟩
    · obtain ⟨rounds, same⟩ := ih (step x)
      exact ⟨rounds + 1, same⟩

namespace Spread

variable {next : String → List String} {names : List String} {s : Spread} {name : String}

/-- All reached names lie among some names, and the links of all but the fresh ones have been
followed. -/
structure Followed (next : String → List String) (names : List String) (s : Spread) : Prop where
  inside : ∀ name ∈ s.reached, name ∈ names
  followed : ∀ name ∈ s.reached, name ∈ s.fresh ∨ ∀ other ∈ next name, other ∈ s.reached

theorem mem_fresh_step :
    name ∈ (s.step next).fresh ↔ (∃ source ∈ s.fresh, name ∈ next source) ∧ name ∉ s.reached := by
  simp [step, List.mem_eraseDups]

theorem mem_reached_step :
    name ∈ (s.step next).reached ↔ name ∈ s.reached ∨ name ∈ (s.step next).fresh :=
  List.mem_append

theorem Followed.step (h : Followed next names s)
    (links : ∀ name, ∀ other ∈ next name, other ∈ names) :
    Followed next names (s.step next) := by
  refine ⟨?_, ?_⟩
  · intro name hname
    rcases mem_reached_step.1 hname with old | new
    · exact h.inside name old
    · obtain ⟨⟨source, -, link⟩, -⟩ := mem_fresh_step.1 new
      exact links source name link
  · intro name hname
    rcases mem_reached_step.1 hname with old | new
    · refine Or.inr fun other link => mem_reached_step.2 ?_
      by_cases known : other ∈ s.reached
      · exact Or.inl known
      · rcases h.followed name old with fresh | closed
        · exact Or.inr (mem_fresh_step.2 ⟨⟨name, fresh, link⟩, known⟩)
        · exact Or.inl (closed other link)
    · exact Or.inl new

/-- Twice the number of names reached, and one more when there is nothing left to follow. -/
def extent (s : Spread) : Nat :=
  2 * s.reached.toFinset.card + if s.fresh = [] then 1 else 0

theorem Followed.extent_le (h : Followed next names s) :
    s.extent ≤ 2 * names.length + 1 := by
  have sub : s.reached.toFinset ⊆ names.toFinset := by
    intro name hname
    rw [List.mem_toFinset] at hname ⊢
    exact h.inside name hname
  have few := (Finset.card_le_card sub).trans (List.toFinset_card_le names)
  unfold extent
  split <;> omega

/-- A step that finds no new name leaves nothing to follow. -/
theorem extent_lt_step (changed : s.step next ≠ s) : s.extent < (s.step next).extent := by
  by_cases more : (s.step next).fresh = []
  · have reached : (s.step next).reached = s.reached := by
      show s.reached ++ (s.step next).fresh = s.reached
      rw [more, List.append_nil]
    have pending : s.fresh ≠ [] := by
      intro none
      apply changed
      calc s.step next = ⟨(s.step next).reached, (s.step next).fresh⟩ := rfl
        _ = ⟨s.reached, s.fresh⟩ := by rw [reached, more, none]
    unfold extent
    rw [reached, if_pos more, if_neg pending]
    omega
  · obtain ⟨name, new⟩ := List.exists_mem_of_ne_nil _ more
    have grows : s.reached.toFinset ⊂ (s.step next).reached.toFinset := by
      refine Finset.ssubset_iff_exists_cons_subset.2 ⟨name, ?_, ?_⟩
      · rw [List.mem_toFinset]
        exact (mem_fresh_step.1 new).2
      · intro other hother
        rw [Finset.mem_cons, List.mem_toFinset] at hother
        rw [List.mem_toFinset, mem_reached_step]
        rcases hother with rfl | old
        · exact Or.inr new
        · exact Or.inl old
    have := Finset.card_lt_card grows
    unfold extent
    rw [if_neg more]
    split <;> omega

end Spread

section

variable {next : String → List String} {names seeds : List String} {bound : Nat}

theorem mem_reachedFrom_of_seed {name : String} (h : name ∈ seeds) :
    name ∈ reachedFrom next bound seeds := by
  refine stabilize_induction (P := fun s : Spread => name ∈ s.reached) ?_ _ _ h
  exact fun s hs => Spread.mem_reached_step.2 (Or.inl hs)

section

variable (hseeds : ∀ name ∈ seeds, name ∈ names)
  (links : ∀ name, ∀ other ∈ next name, other ∈ names) (room : names.length ≤ bound)

include hseeds in
theorem followed_seeds : Spread.Followed next names ⟨seeds, seeds⟩ :=
  ⟨hseeds, fun _ h => Or.inl h⟩

include hseeds links room in
/-- Following links comes to rest before the bound is reached. -/
theorem step_spread :
    (stabilize (Spread.step next) (2 * bound + 1) ⟨seeds, seeds⟩).step next
      = stabilize (Spread.step next) (2 * bound + 1) ⟨seeds, seeds⟩ := by
  have kept : ∀ s, Spread.Followed next names s → Spread.Followed next names (s.step next) :=
    fun s h => h.step links
  exact step_stabilize Spread.extent (2 * names.length + 1) kept (fun s h => h.extent_le)
    (fun s _ changed => Spread.extent_lt_step changed) (2 * bound + 1) _ (followed_seeds hseeds)
    (by omega)

include hseeds links room in
/-- Without any bound, following links ends after some number of rounds, at what is reached. -/
theorem exists_rounds_reachedFrom :
    ∃ rounds : Nat, ((Spread.step next)^[rounds] ⟨seeds, seeds⟩).step next
        = (Spread.step next)^[rounds] ⟨seeds, seeds⟩ ∧
      reachedFrom next bound seeds = ((Spread.step next)^[rounds] ⟨seeds, seeds⟩).reached := by
  obtain ⟨rounds, same⟩ := stabilize_eq_iterate (Spread.step next) (2 * bound + 1) ⟨seeds, seeds⟩
  refine ⟨rounds, ?_, ?_⟩
  · rw [← same]
    exact step_spread hseeds links room
  · rw [← same, reachedFrom]

include hseeds links room in
/-- What has been reached is closed under the links. -/
theorem reachedFrom_closed :
    ∀ name ∈ reachedFrom next bound seeds, ∀ other ∈ next name,
      other ∈ reachedFrom next bound seeds := by
  have stable := step_spread hseeds links room
  have followed := stabilize_induction (fun s (h : Spread.Followed next names s) => h.step links)
    (2 * bound + 1) _ (followed_seeds hseeds)
  intro name hname other link
  rcases followed.followed name hname with fresh | closed
  · -- nothing is fresh any more: what a step finds is new, but the step changes nothing
    rw [← stable] at fresh
    have known := Spread.mem_reached_step.2 (Or.inr fresh)
    rw [stable] at known
    exact absurd known (Spread.mem_fresh_step.1 fresh).2
  · exact closed other link

end

/-- Every reached name is at the end of links from a seed. -/
theorem exists_seed_of_mem_reachedFrom {name : String} (h : name ∈ reachedFrom next bound seeds) :
    ∃ seed ∈ seeds, Relation.ReflTransGen (fun name other => other ∈ next name) seed name := by
  let Linked (name : String) : Prop :=
    ∃ seed ∈ seeds, Relation.ReflTransGen (fun name other => other ∈ next name) seed name
  let Sound (s : Spread) : Prop :=
    (∀ name ∈ s.reached, Linked name) ∧ ∀ name ∈ s.fresh, Linked name
  have kept : ∀ s, Sound s → Sound (s.step next) := by
    rintro s ⟨reached, fresh⟩
    have new : ∀ name ∈ (s.step next).fresh, Linked name := by
      intro name hname
      obtain ⟨⟨source, hsource, link⟩, -⟩ := Spread.mem_fresh_step.1 hname
      obtain ⟨seed, hseed, links⟩ := fresh source hsource
      exact ⟨seed, hseed, links.tail link⟩
    refine ⟨fun name hname => ?_, new⟩
    rcases Spread.mem_reached_step.1 hname with old | hnew
    · exact reached name old
    · exact new name hnew
  have seeded : ∀ name ∈ seeds, Linked name := fun name hseed => ⟨name, hseed, .refl⟩
  exact (stabilize_induction kept (2 * bound + 1) _ ⟨seeded, seeded⟩).1 name h

end

/-! ## Chains of leaders -/

theorem Alternative.mem_leaders_cons {nullable : List String} {alt : Alternative}
    {name other : String} :
    other ∈ Alternative.leaders nullable (.nonterminal name :: alt) ↔
      other = name ∨ name ∈ nullable ∧ other ∈ Alternative.leaders nullable alt := by
  rw [Alternative.leaders]
  split
  · next hnull => simp [hnull]
  · next hnull => simp [hnull]

theorem Alternative.isNullable_cons_nonterminal {nullable : List String} {alt : Alternative}
    {name : String} :
    Alternative.isNullable nullable (.nonterminal name :: alt) = true ↔
      name ∈ nullable ∧ Alternative.isNullable nullable alt = true := by
  simp [Alternative.isNullable, Symbol.isNullable]

/-- Leaders stand before, or behind a beginning that can be left out. -/
theorem Alternative.mem_leaders_append {nullable : List String} {s t : Alternative}
    {other : String} :
    other ∈ Alternative.leaders nullable (s ++ t) ↔
      other ∈ Alternative.leaders nullable s ∨
        Alternative.isNullable nullable s = true ∧ other ∈ Alternative.leaders nullable t := by
  induction s with
  | nil => simp [Alternative.leaders, Alternative.isNullable]
  | cons a s ih =>
    cases a with
    | terminal kind => simp [Alternative.leaders, Alternative.isNullable, Symbol.isNullable]
    | nonterminal name =>
      rw [List.cons_append, mem_leaders_cons, mem_leaders_cons, ih, isNullable_cons_nonterminal]
      tauto

/-- A leader stands behind a beginning that can be left out. -/
theorem Alternative.exists_of_mem_leaders {nullable : List String} {alt : Alternative}
    {name : String} (h : name ∈ Alternative.leaders nullable alt) :
    ∃ before after, alt = before ++ .nonterminal name :: after ∧
      Alternative.isNullable nullable before = true := by
  induction alt with
  | nil => cases h
  | cons a alt ih =>
    cases a with
    | terminal kind => cases h
    | nonterminal other =>
      rcases Alternative.mem_leaders_cons.1 h with rfl | ⟨null, later⟩
      · exact ⟨[], alt, rfl, rfl⟩
      · obtain ⟨before, after, rfl, nullBefore⟩ := ih later
        refine ⟨.nonterminal other :: before, after, rfl, ?_⟩
        exact Alternative.isNullable_cons_nonterminal.2 ⟨null, nullBefore⟩

theorem Alternative.mem_of_mem_leaders {nullable : List String} {alt : Alternative} {name : String}
    (h : name ∈ Alternative.leaders nullable alt) : .nonterminal name ∈ alt := by
  obtain ⟨before, after, rfl, -⟩ := Alternative.exists_of_mem_leaders h
  exact List.mem_append_right _ List.mem_cons_self

namespace Grammar

variable {g : Grammar} {name other : String}

/-- `other` can come first in an alternative of `name`. -/
def Leads (g : Grammar) (name other : String) : Prop :=
  ∃ alt ∈ g.alternatives name, other ∈ Alternative.leaders g.nullable alt

/-- The leaders of a nonterminal, as the table has them. -/
def leadersOf (g : Grammar) (name : String) : List String :=
  ((g.leaderTable g.nullable).get? name).getD []

theorem mem_leadersOf : other ∈ g.leadersOf name ↔ g.Leads name other := by
  unfold leadersOf leaderTable Leads alternatives
  rw [Catalog.get?_map]
  cases g.rules.get? name <;> simp

theorem Leads.mem_references (h : g.Leads name other) : other ∈ g.references := by
  obtain ⟨alt, halt, lead⟩ := h
  unfold references
  rw [List.mem_eraseDups, List.mem_map]
  exact ⟨(name, other), mem_occurrences.2 ⟨alt, halt, Alternative.mem_of_mem_leaders lead⟩, rfl⟩

theorem mem_references_of_mem_leadersOf :
    ∀ name, ∀ other ∈ g.leadersOf name, other ∈ g.references :=
  fun _ _ lead => (mem_leadersOf.1 lead).mem_references

/-- What is reached from the leaders of a nonterminal leads it, over some number of links. -/
theorem mem_reachedFrom_leadersOf :
    other ∈ reachedFrom g.leadersOf (g.nonterminals.length + g.references.length)
      (g.leadersOf name) ↔ Relation.TransGen g.Leads name other := by
  constructor
  · intro reached
    obtain ⟨seed, lead, links⟩ := exists_seed_of_mem_reachedFrom reached
    have chain : Relation.ReflTransGen g.Leads seed other :=
      links.lift id fun _ _ link => mem_leadersOf.1 link
    exact Relation.TransGen.head' (mem_leadersOf.1 lead) chain
  · intro chain
    have links := mem_references_of_mem_leadersOf (g := g)
    have room := Nat.le_add_left g.references.length g.nonterminals.length
    induction chain with
    | single lead => exact mem_reachedFrom_of_seed (mem_leadersOf.2 lead)
    | tail _ lead ih =>
      exact reachedFrom_closed (links name) links room _ ih _ (mem_leadersOf.2 lead)

/-- The left-recursive nonterminals are those from which a chain of leaders comes back. -/
theorem mem_leftRecursive_iff :
    name ∈ g.leftRecursive ↔ Relation.TransGen g.Leads name name := by
  refine List.mem_filter.trans (Iff.trans ?_ mem_reachedFrom_leadersOf)
  rw [decide_eq_true_iff]
  refine and_iff_right_of_imp fun reached => ?_
  obtain ⟨_, ⟨alt, halt, -⟩, -⟩ :=
    Relation.TransGen.head'_iff.1 (mem_reachedFrom_leadersOf.1 reached)
  exact mem_nonterminals_of_mem_alternatives halt

/-- Without left recursion, no chain of leaders comes back to where it began. -/
theorem not_leads_self (h : g.leftRecursive = []) (name : String) :
    ¬ Relation.TransGen g.Leads name name := by
  intro loop
  have found := mem_leftRecursive_iff.2 loop
  rw [h] at found
  exact absurd found List.not_mem_nil

/-! ## Leaders of derived forms -/

/-- A leader after a step was one before it, or leads one that was. -/
theorem Rewrites.mem_leaders {s t : List Symbol} (step : g.Rewrites s t)
    (h : other ∈ Alternative.leaders g.nullable t) :
    ∃ first ∈ Alternative.leaders g.nullable s, Relation.ReflTransGen g.Leads first other := by
  obtain @⟨before, after, owner, alt, halt⟩ := step
  simp only [Alternative.mem_leaders_append, Alternative.mem_leaders_cons]
  rw [Alternative.mem_leaders_append, Alternative.mem_leaders_append] at h
  rcases h with h | ⟨null, h | ⟨nullAlt, h⟩⟩
  · exact ⟨other, Or.inl h, .refl⟩
  · exact ⟨owner, Or.inr ⟨null, Or.inl rfl⟩, .single ⟨alt, halt, h⟩⟩
  · have nullOwner : owner ∈ g.nullable := mem_nullable_iff.2 ⟨alt, halt, nullAlt⟩
    exact ⟨other, Or.inr ⟨null, Or.inr ⟨nullOwner, h⟩⟩, .refl⟩

theorem Derives.mem_leaders {s t : List Symbol} (derived : g.Derives s t)
    (h : other ∈ Alternative.leaders g.nullable t) :
    ∃ first ∈ Alternative.leaders g.nullable s, Relation.ReflTransGen g.Leads first other := by
  induction derived using Relation.ReflTransGen.head_induction_on with
  | refl => exact ⟨other, h, .refl⟩
  | head step _ ih =>
    obtain ⟨mid, hmid, chain⟩ := ih
    obtain ⟨first, hfirst, front⟩ := step.mem_leaders hmid
    exact ⟨first, hfirst, front.trans chain⟩

/-- What comes first in a form derived from a nonterminal is at the end of a chain of leaders. -/
theorem leads_of_derives {rest : List Symbol}
    (derived : Relation.TransGen g.Rewrites [.nonterminal name] (.nonterminal other :: rest)) :
    Relation.TransGen g.Leads name other := by
  obtain ⟨form, step, derived⟩ := Relation.TransGen.head'_iff.1 derived
  obtain ⟨first, hfirst, chain⟩ :=
    Derives.mem_leaders derived (Alternative.mem_leaders_cons.2 (Or.inl rfl))
  exact Relation.TransGen.head' ⟨form, step.of_singleton, hfirst⟩ chain

/-! ## Derivations along chains of leaders -/

theorem Rewrites.append_right {s t : List Symbol} (after : List Symbol)
    (h : Relation.TransGen g.Rewrites s t) :
    Relation.TransGen g.Rewrites (s ++ after) (t ++ after) := by
  refine h.lift (· ++ after) ?_
  rintro _ _ ⟨before, behind, halt⟩
  show g.Rewrites _ _
  simpa using Rewrites.replace before (behind ++ after) halt

/-- What leads a nonterminal comes first in something derived from it: the symbols before it derive
the empty sequence. -/
theorem Leads.derives (lead : g.Leads name other) :
    ∃ rest, Relation.TransGen g.Rewrites [.nonterminal name] (.nonterminal other :: rest) := by
  obtain ⟨alt, halt, leads⟩ := lead
  obtain ⟨before, after, rfl, null⟩ := Alternative.exists_of_mem_leaders leads
  have erased : g.Derives (before ++ .nonterminal other :: after) (.nonterminal other :: after) :=
    (isNullable_iff_derives.1 null).append_right _
  refine ⟨after, Relation.TransGen.head' ?_ erased⟩
  simpa using Rewrites.replace [] [] halt

theorem derives_of_leads (chain : Relation.TransGen g.Leads name other) :
    ∃ rest, Relation.TransGen g.Rewrites [.nonterminal name] (.nonterminal other :: rest) := by
  induction chain with
  | single lead => exact lead.derives
  | tail _ lead ih =>
    obtain ⟨rest, derived⟩ := ih
    obtain ⟨more, step⟩ := lead.derives
    exact ⟨more ++ rest, derived.trans (Rewrites.append_right rest step)⟩

/-- Left recursion is found exactly: the list holds, in the order of declaration and without
repetition, the declared nonterminals from which a derivation of one or more steps leads to a form
that begins with the nonterminal itself. For each nonterminal, following leaders without any bound
comes to rest, and it is listed when it has been reached by then. -/
theorem leftRecursive_exact (g : Grammar) :
    g.leftRecursive.Sublist g.nonterminals ∧ g.leftRecursive.Nodup ∧
      (∀ name, name ∈ g.leftRecursive ↔ name ∈ g.nonterminals ∧ ∃ rest,
        Relation.TransGen g.Rewrites [.nonterminal name] (.nonterminal name :: rest)) ∧
      ∀ name, ∃ rounds : Nat,
        let last := (Spread.step g.leadersOf)^[rounds] ⟨g.leadersOf name, g.leadersOf name⟩
        last.step g.leadersOf = last ∧
          (name ∈ g.leftRecursive ↔ name ∈ g.nonterminals ∧ name ∈ last.reached) := by
  have inside : g.leftRecursive.Sublist g.nonterminals := List.filter_sublist
  refine ⟨inside, inside.nodup g.rules.nodup_names, ?_, ?_⟩
  · intro name
    constructor
    · exact fun found => ⟨inside.subset found, derives_of_leads (mem_leftRecursive_iff.1 found)⟩
    · rintro ⟨-, rest, loop⟩
      exact mem_leftRecursive_iff.2 (leads_of_derives loop)
  · intro name
    have links := mem_references_of_mem_leadersOf (g := g)
    obtain ⟨rounds, atRest, reached⟩ := exists_rounds_reachedFrom (links name) links
      (Nat.le_add_left g.references.length g.nonterminals.length)
    refine ⟨rounds, atRest, ?_⟩
    rw [← reached]
    exact List.mem_filter.trans (and_congr_right fun _ => decide_eq_true_iff)

end Grammar

end TopDown
