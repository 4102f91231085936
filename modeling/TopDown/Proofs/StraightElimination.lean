import TopDown.Proofs.RecursionFree

/-
  Removing left recursion from a grammar that has none does no harm.

  Splicing can make an alternative longer, and what can be left out uncovers what stands behind it.
  It ends nevertheless (`wellFounded_splices`). Without left recursion chains of leaders end; a
  symbol that is spliced in and comes to the front leads the one that it replaces, and a symbol that
  is uncovered has not been touched. So the induction is on the nonterminal at the front, along
  chains of leaders, and for each on what stands behind it.

  Expansion only goes along chains of leaders (`leads_of_mem_expanded`), so no alternative comes to
  begin with its own nonterminal, no tail is made, and no chain of leaders is closed. That is what
  a step keeps (`Straight.step`), and with it the next expansion ends.
-/

namespace TopDown

theorem Alternative.leaders_mono {known more : List String} (h : ∀ name ∈ known, name ∈ more)
    {alt : Alternative} {name : String} (lead : name ∈ Alternative.leaders known alt) :
    name ∈ Alternative.leaders more alt := by
  obtain ⟨before, after, rfl, null⟩ := Alternative.exists_of_mem_leaders lead
  refine Alternative.mem_leaders_append.2 (Or.inr ⟨Alternative.isNullable_mono h null, ?_⟩)
  exact Alternative.mem_leaders_cons.2 (Or.inl rfl)

namespace Grammar

variable {g G : Grammar} {name other : String} {alt : Alternative} {alts : List Alternative}
  {earlier : List String} {ceiling : Nat}

/-! ## Chains of leaders end -/

/-- The nonterminals at the ends of chains of leaders. -/
def reach (g : Grammar) (name : String) : Finset String :=
  (reachedFrom g.leadersOf (g.nonterminals.length + g.references.length)
    (g.leadersOf name)).toFinset

theorem mem_reach : other ∈ g.reach name ↔ Relation.TransGen g.Leads name other := by
  rw [reach, List.mem_toFinset, mem_reachedFrom_leadersOf]

theorem wellFounded_leads (straight : g.leftRecursive = []) :
    WellFounded fun other name => g.Leads name other := by
  have falls : ∀ {other name}, g.Leads name other →
      (g.reach other).card < (g.reach name).card := by
    intro other name lead
    have further : g.reach other ⊆ g.reach name :=
      fun last chain => mem_reach.2 (.head lead (mem_reach.1 chain))
    refine Finset.card_lt_card ((Finset.ssubset_iff_of_subset further).2 ⟨other, ?_, ?_⟩)
    · exact mem_reach.2 (.single lead)
    · exact fun loop => not_leads_self straight other (mem_reach.1 loop)
  exact Subrelation.wf falls (measure fun name => (g.reach name).card).wf

/-! ## Splicing ends -/

/-- What splicing away a leading nonterminal makes of an alternative. -/
def splicings (g : Grammar) : Alternative → List Alternative
  | .nonterminal lead :: rest => Alternative.splice (g.alternatives lead) rest
  | _ => []

/-- `sub` is one of the things that splicing makes of `alt`. -/
def Splices (g : Grammar) (sub alt : Alternative) : Prop :=
  sub ∈ g.splicings alt

theorem acc_nil : Acc g.Splices [] :=
  Acc.intro _ fun _ h => absurd h List.not_mem_nil

/-- Splicing that ends behind a sequence, and at the front of it whatever stands behind, ends. -/
theorem acc_append {s rest : Alternative}
    (front : ∀ lead ∈ Alternative.leaders g.nullable s, ∀ rest,
      (lead ∈ g.nullable → Acc g.Splices rest) → Acc g.Splices (.nonterminal lead :: rest))
    (behind : Alternative.isNullable g.nullable s = true → Acc g.Splices rest) :
    Acc g.Splices (s ++ rest) := by
  induction s with
  | nil => exact behind rfl
  | cons a s ih =>
    cases a with
    | terminal kind => exact Acc.intro _ fun _ h => absurd h List.not_mem_nil
    | nonterminal name =>
      refine front name (Alternative.mem_leaders_cons.2 (Or.inl rfl)) (s ++ rest) fun null => ?_
      refine ih (fun lead h => front lead (Alternative.mem_leaders_cons.2 (Or.inr ⟨null, h⟩))) ?_
      exact fun nullRest => behind (Alternative.isNullable_cons_nonterminal.2 ⟨null, nullRest⟩)

/-- Splicing ends at a nonterminal when it ends behind it, should the nonterminal be left out. -/
theorem acc_cons (straight : g.leftRecursive = []) (name : String) (rest : Alternative)
    (behind : name ∈ g.nullable → Acc g.Splices rest) :
    Acc g.Splices (.nonterminal name :: rest) := by
  induction name using (wellFounded_leads straight).induction generalizing rest with
  | _ name ih =>
    refine Acc.intro _ fun sub hsub => ?_
    obtain ⟨front, hfront, rfl⟩ := List.mem_map.1 hsub
    refine acc_append ?_ ?_
    · exact fun lead hlead rest behind => ih lead ⟨front, hfront, hlead⟩ rest behind
    · exact fun null => behind (mem_nullable_iff.2 ⟨front, hfront, null⟩)

theorem wellFounded_splices (straight : g.leftRecursive = []) : WellFounded g.Splices := by
  refine ⟨fun alt => ?_⟩
  have ends : Acc g.Splices (alt ++ []) := by
    exact acc_append (fun lead _ => acc_cons straight lead) fun _ => acc_nil
  rwa [List.append_nil] at ends

/-! ## Expansions end -/

/-- One ceiling does for all alternatives of a list, when there is one for each. -/
theorem exists_common_depth (alts : List Alternative)
    (each : ∀ alt ∈ alts, ∃ depth, ∀ acc, ∃ acc', g.expand earlier depth acc alt = some acc') :
    ∃ depth, ∀ alt ∈ alts, ∀ acc, ∃ acc', g.expand earlier depth acc alt = some acc' := by
  induction alts with
  | nil => exact ⟨0, fun alt h => absurd h List.not_mem_nil⟩
  | cons first rest ih =>
    obtain ⟨depth, ends⟩ := each first List.mem_cons_self
    obtain ⟨more, endsRest⟩ := ih fun alt halt => each alt (List.mem_cons_of_mem _ halt)
    refine ⟨max depth more, fun alt halt acc => ?_⟩
    rcases List.mem_cons.1 halt with rfl | halt
    · obtain ⟨acc', h⟩ := ends acc
      exact ⟨acc', expand_mono (le_max_left ..) h⟩
    · obtain ⟨acc', h⟩ := endsRest alt halt acc
      exact ⟨acc', expand_mono (le_max_right ..) h⟩

theorem exists_depth_expand (straight : g.leftRecursive = []) (earlier : List String)
    (alt : Alternative) :
    ∃ depth, ∀ acc, ∃ acc', g.expand earlier depth acc alt = some acc' := by
  induction alt using (wellFounded_splices straight).induction with
  | _ alt ih =>
    obtain ⟨depth, ends⟩ := exists_common_depth (g.splicings alt) ih
    refine ⟨depth + 1, exists_expand_succ ?_⟩
    rintro lead rest rfl -
    exact ends

/-- Without left recursion every expansion ends, whichever nonterminals are spliced away. -/
theorem exists_depth_expanded (straight : g.leftRecursive = []) (earlier : List String)
    (name : String) : ∃ depth alts, ∀ ceiling, depth ≤ ceiling →
      g.expandedAlternatives ceiling earlier name = .ok alts := by
  obtain ⟨depth, ends⟩ := exists_common_depth (g.alternatives name)
    fun alt _ => exists_depth_expand straight earlier alt
  obtain ⟨alts, expanded⟩ := exists_expandedAlternatives ends
  exact ⟨depth, alts, fun ceiling le => expandedAlternatives_mono le expanded⟩

/-! ## What an expansion makes of a rule -/

section Expanded

variable (expanded : g.expandedAlternatives ceiling earlier name = .ok alts)

include expanded in
/-- What comes first in an expanded alternative is at the end of a chain of leaders. -/
theorem leads_of_mem_expanded : ∀ alt ∈ alts, ∀ other ∈ Alternative.leaders g.nullable alt,
    Relation.TransGen g.Leads name other := by
  refine expandedAlternatives_induction ?_ ?_ expanded
  · intro lead _ rest chains sub hsub other hother
    obtain ⟨front, hfront, rfl⟩ := List.mem_map.1 hsub
    have step : g.Rewrites (.nonterminal lead :: rest) (front ++ rest) := by
      simpa using Rewrites.replace [] rest hfront
    obtain ⟨first, hfirst, chain⟩ := step.mem_leaders hother
    exact (chains first hfirst).trans_left chain
  · exact fun alt halt other hother => .single ⟨alt, halt, hother⟩

include expanded in
/-- Where all that is referred to has an alternative, an expansion leaves some if there were any. -/
theorem expanded_ne_nil (straight : g.leftRecursive = [])
    (defined : ∀ other, g.Mentions (.nonterminal other) → g.alternatives other ≠ [])
    (some_alt : g.alternatives name ≠ []) : alts ≠ [] := by
  obtain ⟨seen, initial, closure⟩ := expandedAlternatives_closure expanded
  -- splicing goes on from anything that is met, and where it ends there is a result
  have found : ∀ alt, (∀ s ∈ alt, g.Mentions s) → alt ∈ seen → alts ≠ [] := by
    intro alt mentions met
    induction alt using (wellFounded_splices straight).induction with
    | _ alt ih =>
      rcases closure alt met with done | ⟨lead, rest, rfl, -, subs⟩
      · exact List.ne_nil_of_mem done
      · obtain ⟨front, hfront⟩ :=
          List.exists_mem_of_ne_nil _ (defined lead (mentions _ List.mem_cons_self))
        have hsub : front ++ rest ∈ Alternative.splice (g.alternatives lead) rest :=
          List.mem_map_of_mem hfront
        refine ih _ hsub (fun s hs => ?_) (subs _ hsub)
        rcases List.mem_append.1 hs with hs | hs
        · exact ⟨lead, front, hfront, hs⟩
        · exact mentions s (List.mem_cons_of_mem _ hs)
  obtain ⟨alt, halt⟩ := List.exists_mem_of_ne_nil _ some_alt
  exact found alt (fun s hs => ⟨name, alt, halt, hs⟩) (initial alt halt)

variable (declared : name ∈ g.nonterminals) (unmet : name ∉ earlier)

include expanded declared unmet in
/-- Leaders in the expanded grammar are at the ends of chains of leaders. -/
theorem leads_setRule_expanded {first second : String}
    (lead : (g.setRule name alts).Leads first second) :
    Relation.TransGen g.Leads first second := by
  have null : ∀ n ∈ (g.setRule name alts).nullable, n ∈ g.nullable := by
    intro n hn
    obtain ⟨alt, halt, -⟩ := mem_nullable_iff.1 hn
    have listed := mem_nonterminals_of_mem_alternatives halt
    rw [nonterminals_setRule alts declared] at listed
    exact (conservative_expanded expanded unmet).mem_nullable listed hn
  obtain ⟨alt, halt, leads⟩ := lead
  have before := Alternative.leaders_mono null leads
  by_cases same : first = name
  · subst same
    rw [alternatives_setRule_self] at halt
    exact leads_of_mem_expanded expanded alt halt second before
  · rw [alternatives_setRule_of_ne same] at halt
    exact .single ⟨alt, halt, before⟩

include expanded declared unmet in
theorem leftRecursive_setRule_expanded (straight : g.leftRecursive = []) :
    (g.setRule name alts).leftRecursive = [] := by
  have chains : Relation.TransGen (g.setRule name alts).Leads ≤ Relation.TransGen g.Leads :=
    Relation.TransGen.closed fun _ _ => leads_setRule_expanded expanded declared unmet
  refine List.eq_nil_iff_forall_not_mem.2 fun n found => not_leads_self straight n ?_
  exact chains n n (mem_leftRecursive_iff.1 found)

include expanded in
theorem validate_setRule_expanded (straight : g.leftRecursive = []) (valid : g.validate = .ok ()) :
    (g.setRule name alts).validate = .ok () := by
  obtain ⟨start, hstart, inhabited, defined⟩ := validate_eq_ok_iff.1 valid
  have kept : ∀ n, g.alternatives n ≠ [] → (g.setRule name alts).alternatives n ≠ [] := by
    intro n hn
    by_cases same : n = name
    · subst same
      rw [alternatives_setRule_self]
      exact expanded_ne_nil expanded straight defined hn
    · rwa [alternatives_setRule_of_ne same]
  refine validate_eq_ok_iff.2 ⟨start, hstart, kept start inhabited, fun n mentioned => ?_⟩
  refine kept n (defined n ?_)
  rcases mentioned.of_setRule with mentioned | ⟨alt, halt, hs⟩
  · exact mentioned
  · exact mentions_of_mem_expanded expanded alt halt _ hs

/-- Where no alternative begins with the nonterminal, there is nothing to split off. -/
theorem splitRecursion_of_unled
    (unled : ∀ alt ∈ alts, ¬ Alternative.startsWith name alt = true) :
    (g.splitRecursion name alts).outcome = .ok (g.setRule name alts) := by
  have none : alts.filter (Alternative.startsWith name) = [] := List.filter_eq_nil_iff.2 unled
  unfold splitRecursion
  rw [List.partition_eq_filter_filter]
  dsimp only
  rw [if_pos none]
  rfl

include expanded in
theorem splitRecursion_expanded (straight : g.leftRecursive = []) :
    (g.splitRecursion name alts).outcome = .ok (g.setRule name alts) := by
  refine splitRecursion_of_unled fun alt halt starts => ?_
  obtain ⟨rest, rfl⟩ := Alternative.startsWith_iff.1 starts
  have front : name ∈ Alternative.leaders g.nullable (.nonterminal name :: rest) :=
    Alternative.mem_leaders_cons.2 (Or.inl rfl)
  exact not_leads_self straight name (leads_of_mem_expanded expanded _ halt name front)

end Expanded

/-! ## The whole pass -/

/-- What the pass keeps: `G`, which `g` has become, has the same names and still no left
recursion. -/
structure Straight (g G : Grammar) : Prop where
  nonterminals : G.nonterminals = g.nonterminals
  origins : G.origins = g.origins
  counter : G.counter = g.counter
  valid : G.validate = .ok ()
  straight : G.leftRecursive = []

theorem Straight.step (so_far : Straight g G) (declared : name ∈ g.nonterminals)
    (unmet : name ∉ earlier) :
    ∃ depth G', (∀ ceiling, depth ≤ ceiling →
      (eliminateIn ceiling (G, earlier) name).outcome = .ok (G', earlier ++ [name])) ∧
        Straight g G' := by
  rw [← so_far.nonterminals] at declared
  obtain ⟨depth, alts, expanded⟩ := exists_depth_expanded so_far.straight earlier name
  have here := expanded depth le_rfl
  refine ⟨depth, G.setRule name alts, fun ceiling le => ?_, ?_⟩
  · unfold eliminateIn
    refine Traced.outcome_bind_eq_ok.2 ⟨alts, expanded ceiling le, ?_⟩
    refine Traced.outcome_bind_eq_ok.2 ⟨_, splitRecursion_expanded here so_far.straight, ?_⟩
    rfl
  · exact ⟨(nonterminals_setRule alts declared).trans so_far.nonterminals, so_far.origins,
      so_far.counter, validate_setRule_expanded here so_far.straight so_far.valid,
      leftRecursive_setRule_expanded here declared unmet so_far.straight⟩

theorem Straight.run {rest : List String} (whole : earlier ++ rest = g.nonterminals)
    (so_far : Straight g G) :
    ∃ depth last, (∀ ceiling, depth ≤ ceiling →
      (rest.foldlM (eliminateIn ceiling) (G, earlier)).outcome = .ok (last, g.nonterminals)) ∧
        Straight g last := by
  induction rest generalizing G earlier with
  | nil =>
    rw [List.append_nil] at whole
    exact ⟨0, G, fun ceiling _ => by rw [whole]; rfl, so_far⟩
  | cons name rest ih =>
    obtain ⟨declared, unmet⟩ := mem_nonterminals_of_order whole
    obtain ⟨depth, G', dealt, next⟩ := so_far.step declared unmet
    have onward : (earlier ++ [name]) ++ rest = g.nonterminals := by
      rw [← whole, List.append_assoc, List.singleton_append]
    obtain ⟨more, last, finished, kept⟩ := ih onward next
    refine ⟨max depth more, last, fun ceiling le => ?_, kept⟩
    rw [List.foldlM_cons]
    exact Traced.outcome_bind_eq_ok.2
      ⟨_, dealt ceiling (by omega), finished ceiling (by omega)⟩

/-- Removing left recursion where there is none. In a valid grammar without left recursion every
expansion ends, and under every ceiling that is high enough the pass returns one and the same
grammar. It has the same nonterminals in the same order, the same origins and the same counter for
made-up names; it is valid and has no left recursion. -/
theorem eliminateBelow_harmless (valid : g.validate = .ok ()) (straight : g.leftRecursive = []) :
    (∀ earlier name, ∃ depth alts, ∀ ceiling, depth ≤ ceiling →
      g.expandedAlternatives ceiling earlier name = .ok alts) ∧
    ∃ depth g', (∀ ceiling, depth ≤ ceiling → (g.eliminateBelow ceiling).outcome = .ok g') ∧
      g'.nonterminals = g.nonterminals ∧ g'.origins = g.origins ∧ g'.counter = g.counter ∧
      g'.validate = .ok () ∧ g'.leftRecursive = [] := by
  refine ⟨exists_depth_expanded straight, ?_⟩
  have start : Straight g g.thaw := ⟨rfl, rfl, rfl, valid, straight⟩
  obtain ⟨depth, last, finished, kept⟩ := start.run (List.nil_append g.nonterminals)
  refine ⟨depth, last.freeze, fun ceiling le => ?_, kept.nonterminals, kept.origins, kept.counter,
    kept.valid, kept.straight⟩
  unfold eliminateBelow
  refine Traced.outcome_bind_eq_ok.2 ⟨(), valid, ?_⟩
  exact Traced.outcome_bind_eq_ok.2 ⟨_, finished ceiling le, rfl⟩

/-- Numbers behind any signs; the signs can be left out, and so can the pair of them. -/
def signed : Grammar :=
  assemble (some "number")
    [("sign", [[.terminal .minus], []]),
     ("signs", [[.nonterminal "sign", .nonterminal "sign"]]),
     ("number", [[.nonterminal "signs", .nonterminal "sign", .terminal .integer]])] []

/-- `signed` with the signs spliced in. -/
def signedSpliced : Grammar :=
  assemble (some "number")
    [("sign", [[.terminal .minus], []]),
     ("signs", [[.terminal .minus, .nonterminal "sign"], [.terminal .minus], []]),
     ("number", [[.terminal .minus, .nonterminal "sign", .nonterminal "sign", .terminal .integer],
       [.terminal .minus, .nonterminal "sign", .terminal .integer],
       [.terminal .minus, .terminal .integer], [.terminal .integer]])] []

theorem eliminateBelow_harmless_signed :
    signed.validate = .ok () ∧ signed.leftRecursive = [] ∧
      signedSpliced.nonterminals = signed.nonterminals ∧
      signedSpliced.validate = .ok () ∧ signedSpliced.leftRecursive = [] ∧
      ∃ depth, ∀ ceiling, depth ≤ ceiling →
        (signed.eliminateBelow ceiling).outcome = .ok signedSpliced := by
  have valid : signed.validate = .ok () := by rfl
  have straight : signed.leftRecursive = [] := by decide +kernel
  obtain ⟨-, depth, g', returned, names, -, -, still_valid, still_straight⟩ :=
    eliminateBelow_harmless valid straight
  have spliced : (signed.eliminateBelow (depth + 6)).outcome = .ok signedSpliced := by rfl
  have same := (returned (depth + 6) (by omega)).symm.trans spliced
  obtain rfl := Except.ok.inj same
  exact ⟨valid, straight, names, still_valid, still_straight, depth, returned⟩

end Grammar

end TopDown
