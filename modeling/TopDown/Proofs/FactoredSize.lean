import TopDown.Proofs.FactoredForm

/-
  Left factoring keeps within its budget.

  An expansion that makes the grammar too large is undone, but the factoring after it may make the
  grammar larger still. Joining a group of alternatives adds a symbol, the tail, and an alternative,
  and takes the common beginning out of all members but one. So a join adds one to the size at most,
  and it uses up symbols that are not looked at again: those of the common beginning.

  The size together with the symbols of the nonterminals still to be factored therefore never grows
  (`size_add_symbolsOf_factorRule`). Before the first turn those symbols are part of the size, after
  the last there are none, and factoring at most doubles the size (`size_factorAll`).
-/

namespace TopDown

namespace Alternative

/-- How many symbols there are in the alternatives. -/
def symbolCount (alts : List Alternative) : Nat :=
  (alts.map List.length).sum

/-- Symbols and alternatives together. -/
def extent (alts : List Alternative) : Nat :=
  symbolCount alts + alts.length

variable {alt : Alternative} {alts more : List Alternative}

@[simp] theorem symbolCount_nil : symbolCount [] = 0 := rfl

@[simp] theorem symbolCount_cons :
    symbolCount (alt :: alts) = alt.length + symbolCount alts := by
  simp [symbolCount]

@[simp] theorem symbolCount_append :
    symbolCount (alts ++ more) = symbolCount alts + symbolCount more := by
  simp [symbolCount]

theorem symbolCount_le_extent (alts : List Alternative) : symbolCount alts ≤ extent alts :=
  Nat.le_add_right _ _

@[simp] theorem extent_cons : extent (alt :: alts) = alt.length + 1 + extent alts := by
  simp only [extent, symbolCount_cons, List.length_cons]
  omega

@[simp] theorem extent_append : extent (alts ++ more) = extent alts + extent more := by
  simp only [extent, symbolCount_append, List.length_append]
  omega

theorem symbolCount_perm (h : alts.Perm more) : symbolCount alts = symbolCount more :=
  (h.map List.length).sum_eq

theorem distinct_sublist (alts : List Alternative) : (distinct alts).Sublist alts := by
  induction alts with
  | nil => exact .slnil
  | cons alt rest ih => exact (List.filter_sublist.trans ih).cons_cons alt

theorem symbolCount_distinct_le (alts : List Alternative) :
    symbolCount (distinct alts) ≤ symbolCount alts :=
  ((distinct_sublist alts).map List.length).sum_le_sum fun _ _ => Nat.zero_le _

theorem extent_distinct_le (alts : List Alternative) : extent (distinct alts) ≤ extent alts :=
  Nat.add_le_add (symbolCount_distinct_le alts) (distinct_sublist alts).length_le

/-- Dropping a common beginning takes its symbols out of every alternative. -/
theorem symbolCount_drop {front : Alternative} (common : ∀ alt ∈ alts, front <+: alt) :
    symbolCount (alts.map (·.drop front.length)) + alts.length * front.length
      = symbolCount alts := by
  induction alts with
  | nil => simp
  | cons alt rest ih =>
    have here := (common alt List.mem_cons_self).length_le
    have others := ih fun a ha => common a (List.mem_cons_of_mem alt ha)
    rw [List.map_cons, symbolCount_cons, symbolCount_cons, List.length_drop, List.length_cons,
      Nat.succ_mul]
    omega

end Alternative

namespace Grammar

open TopDown.Alternative (symbolCount extent)

variable {g g' G last : Grammar} {name owner : String} {names tails : List String}
  {alt : Alternative} {alts rest : List Alternative} {ceiling : Nat} {sizeLimit : Int}

/-! ## The size of a grammar -/

theorem size_eq_sum (g : Grammar) :
    g.size = (g.nonterminals.map fun n => extent (g.alternatives n)).sum := by
  have row : ∀ (n : String) (alts : List Alternative) (start : Nat),
      (alts.map fun alt => (n, alt)).foldr (fun p total => p.2.length + 1 + total) start
        = extent alts + start := by
    intro n alts start
    induction alts with
    | nil => simp [extent]
    | cons alt rest ih =>
      rw [List.map_cons, List.foldr_cons, ih, Alternative.extent_cons]
      dsimp only
      omega
  have entries : ∀ entries : List (String × List Alternative),
      (entries.flatMap fun e => e.2.map fun alt => (e.1, alt)).foldr
        (fun p total => p.2.length + 1 + total) 0 = (entries.map fun e => extent e.2).sum := by
    intro entries
    induction entries with
    | nil => rfl
    | cons e rest ih => rw [List.flatMap_cons, List.foldr_append, ih, row, List.map_cons,
        List.sum_cons]
  refine (entries g.rules.entries).trans ?_
  rw [nonterminals, Catalog.names, List.map_map]
  congr 1
  refine List.map_congr_left fun e he => ?_
  have onFile : g.rules.get? e.1 = some e.2 := Catalog.mem_entries_iff.1 he
  rw [Function.comp_apply, alternatives, onFile, Option.getD_some]

/-- A new rule counts in the place of the old one. -/
theorem size_setRule (g : Grammar) (name : String) (alts : List Alternative) :
    (g.setRule name alts).size + extent (g.alternatives name) = g.size + extent alts := by
  have others : ∀ names : List String, name ∉ names →
      names.map (fun n => extent ((g.setRule name alts).alternatives n))
        = names.map fun n => extent (g.alternatives n) := by
    intro names absent
    refine List.map_congr_left fun n hn => ?_
    rw [alternatives_setRule_of_ne (ne_of_mem_of_not_mem hn absent)]
  rw [size_eq_sum, size_eq_sum]
  by_cases declared : name ∈ g.nonterminals
  · rw [nonterminals_setRule alts declared, ← List.sum_map_erase _ declared,
      ← List.sum_map_erase (fun n => extent (g.alternatives n)) declared,
      others _ (g.nodup_nonterminals.not_mem_erase), alternatives_setRule_self]
    omega
  · have names : (g.setRule name alts).nonterminals = g.nonterminals ++ [name] := by
      rw [nonterminals, setRule, Catalog.names_set]
      exact if_neg declared
    rw [names, List.map_append, List.sum_append, others _ declared, List.map_singleton,
      List.sum_singleton, alternatives_setRule_self, alternatives_eq_nil declared]
    rfl

theorem size_synthesize {tag : String} {origin : Origin} :
    (g.synthesize tag origin).2.size = g.size := by
  have new := size_setRule g (g.synthesize tag origin).1 []
  rw [alternatives_eq_nil synthesize_notMem_nonterminals] at new
  exact Nat.add_right_cancel new

/-- The symbols in the alternatives of some nonterminals. -/
def symbolsOf (g : Grammar) (names : List String) : Nat :=
  (names.map fun n => symbolCount (g.alternatives n)).sum

theorem symbolsOf_cons :
    g.symbolsOf (name :: names) = symbolCount (g.alternatives name) + g.symbolsOf names := by
  simp [symbolsOf]

theorem symbolsOf_append :
    g.symbolsOf (names ++ tails) = g.symbolsOf names + g.symbolsOf tails := by
  simp [symbolsOf]

theorem symbolsOf_congr (same : ∀ n ∈ names, g'.alternatives n = g.alternatives n) :
    g'.symbolsOf names = g.symbolsOf names := by
  rw [symbolsOf, symbolsOf]
  congr 1
  exact List.map_congr_left fun n hn => by rw [same n hn]

theorem symbolsOf_nonterminals_le (g : Grammar) : g.symbolsOf g.nonterminals ≤ g.size := by
  rw [size_eq_sum]
  exact List.sum_le_sum fun n _ => Alternative.symbolCount_le_extent _

/-! ## One nonterminal -/

/-- Joining a group makes one alternative longer by the tail, and takes the common beginning out of
the others; there is one other at least, and the beginning is not empty. -/
theorem extent_join_le (nonempty : alt ≠ []) (several : alike alt rest ≠ []) (tail : String) :
    extent (Alternative.distinct (leftOver alt rest))
        + symbolCount (Alternative.distinct (leftOver alt rest))
        + extent [shared alt rest ++ [.nonterminal tail]]
        + extent (unlike alt rest) + symbolCount (unlike alt rest)
      ≤ extent (alt :: rest) + symbolCount (alt :: rest) := by
  have dropped : symbolCount (leftOver alt rest)
      + (alt :: alike alt rest).length * (shared alt rest).length
        = symbolCount (alt :: alike alt rest) :=
    Alternative.symbolCount_drop (Alternative.foldl_common_prefix (alike alt rest) alt)
  have length : (alt :: alike alt rest).length = (alike alt rest).length + 1 := List.length_cons
  have others := List.length_pos_of_ne_nil several
  have front : 0 < (shared alt rest).length := List.length_pos_of_ne_nil (shared_ne_nil nonempty)
  have saved : 2 * (shared alt rest).length
      ≤ (alt :: alike alt rest).length * (shared alt rest).length :=
    Nat.mul_le_mul_right _ (by omega)
  have parts := alike_append_unlike_perm alt rest
  have symbols := Alternative.symbolCount_perm parts
  have count := parts.length_eq
  have fewer := Alternative.symbolCount_distinct_le (leftOver alt rest)
  have shorter : (Alternative.distinct (leftOver alt rest)).length
      ≤ (alt :: alike alt rest).length :=
    (Alternative.distinct_sublist _).length_le.trans_eq (List.length_map _)
  rw [Alternative.symbolCount_cons] at dropped
  rw [Alternative.symbolCount_append] at symbols
  rw [List.length_append] at count
  simp only [extent, Alternative.symbolCount_cons, Alternative.symbolCount_nil,
    List.length_append, List.length_cons, List.length_nil]
  omega

namespace Joined

variable {acc : Joined}

/-- The size of the grammar as it would be if the work stopped here, with the symbols of what is
still to do and of the tails. -/
def cost (acc : Joined) (owner : String) (todo : List Alternative) : Nat :=
  (acc.pending owner todo).size + symbolCount todo + acc.grammar.symbolsOf acc.tails

theorem cost_keep_le :
    cost { acc with alts := acc.alts ++ [alt] } owner rest ≤ acc.cost owner (alt :: rest) := by
  have same : pending { acc with alts := acc.alts ++ [alt] } owner rest
      = acc.pending owner (alt :: rest) := by simp [pending]
  rw [cost, cost, same, Alternative.symbolCount_cons]
  dsimp only
  omega

/-- The tail is all that joining adds beside the rule of the owner. -/
theorem size_join : (acc.join owner alt (alike alt rest)).grammar.size
    = acc.grammar.size + extent (Alternative.distinct (leftOver alt rest)) := by
  have made := size_setRule (acc.grammar.factorTail owner).2 (acc.nextTail owner)
    (Alternative.distinct (leftOver alt rest))
  have empty : (acc.grammar.factorTail owner).2.alternatives (acc.nextTail owner) = [] :=
    alternatives_synthesize.trans (alternatives_eq_nil nextTail_notMem)
  have same : (acc.grammar.factorTail owner).2.size = acc.grammar.size := size_synthesize
  rw [empty, same] at made
  exact made

theorem Progress.symbolsOf_join (h : Progress g owner acc (alt :: rest)) :
    (acc.join owner alt (alike alt rest)).grammar.symbolsOf
        (acc.join owner alt (alike alt rest)).tails
      = acc.grammar.symbolsOf acc.tails
        + symbolCount (Alternative.distinct (leftOver alt rest)) := by
  have old : (acc.join owner alt (alike alt rest)).grammar.symbolsOf acc.tails
      = acc.grammar.symbolsOf acc.tails := by
    refine symbolsOf_congr fun n hn => alternatives_join_of_ne ?_
    have declared : n ∈ acc.grammar.nonterminals := h.names ▸ List.mem_append_right _ hn
    exact ne_of_mem_of_not_mem declared nextTail_notMem
  have tails : (acc.join owner alt (alike alt rest)).tails = acc.tails ++ [acc.nextTail owner] :=
    rfl
  rw [tails, symbolsOf_append, old, symbolsOf_cons, alternatives_join_tail]
  rfl

theorem Progress.cost_join_le (h : Progress g owner acc (alt :: rest)) (nonempty : alt ≠ [])
    (several : alike alt rest ≠ []) :
    (acc.join owner alt (alike alt rest)).cost owner (unlike alt rest)
      ≤ acc.cost owner (alt :: rest) := by
  have after := size_setRule (acc.join owner alt (alike alt rest)).grammar owner
    ((acc.join owner alt (alike alt rest)).alts ++ unlike alt rest)
  have before := size_setRule acc.grammar owner (acc.alts ++ alt :: rest)
  have joined := extent_join_le nonempty several (acc.nextTail owner)
  have alts : (acc.join owner alt (alike alt rest)).alts
      = acc.alts ++ [shared alt rest ++ [.nonterminal (acc.nextTail owner)]] := rfl
  rw [alternatives_join_of_ne h.known.tail_ne.symm, size_join, alts] at after
  rw [cost, cost, pending, pending, h.symbolsOf_join, alts]
  rw [Alternative.extent_append, Alternative.extent_append] at after
  rw [Alternative.extent_append] at before
  omega

end Joined

/-- What factoring a nonterminal comes to: the size of the grammar and the symbols of the tails are
together no more than the size before and the symbols of the nonterminal. -/
theorem size_add_symbolsOf_factorRule (declared : name ∈ g.nonterminals)
    (h : (g.factorRule name).outcome = .ok (g', tails)) :
    g'.size + g'.symbolsOf tails ≤ g.size + symbolCount (g.alternatives name) := by
  unfold factorRule at h
  obtain ⟨joined, hjoined, h⟩ := Traced.outcome_bind_eq_ok.1 h
  cases h
  let start : Joined := ⟨g, [], []⟩
  let alts := Alternative.distinct (g.alternatives name)
  have bounded : joined.Progress g name [] ∧ joined.cost name [] ≤ start.cost name alts := by
    refine joinAlternatives_induction
      (P := fun acc todo => acc.Progress g name todo ∧ acc.cost name todo ≤ start.cost name alts)
      ?_ ?_ ⟨.start declared, Nat.le_refl _⟩ hjoined
    · rintro acc alt rest alone ⟨so_far, below⟩
      exact ⟨so_far.keep alone, Joined.cost_keep_le.trans below⟩
    · rintro acc alt rest nonempty several ⟨so_far, below⟩
      exact ⟨so_far.join nonempty, (so_far.cost_join_le nonempty several).trans below⟩
  obtain ⟨whole, below⟩ := bounded
  have first := size_setRule g name alts
  have fewer : symbolCount alts ≤ _ := Alternative.symbolCount_distinct_le _
  have smaller : extent alts ≤ _ := Alternative.extent_distinct_le _
  have after : (joined.grammar.setRule name joined.alts).symbolsOf joined.tails
      = joined.grammar.symbolsOf joined.tails := by
    refine symbolsOf_congr fun n hn => alternatives_setRule_of_ne ?_
    have nodup := joined.grammar.nodup_nonterminals
    rw [whole.names, List.nodup_append] at nodup
    exact (nodup.2.2 name declared n hn).symm
  have begun : start.cost name alts = (g.setRule name alts).size + symbolCount alts := rfl
  have ended : joined.cost name [] = (joined.grammar.setRule name joined.alts).size
      + joined.grammar.symbolsOf joined.tails := by
    rw [Joined.cost, Joined.pending, List.append_nil, Alternative.symbolCount_nil, Nat.add_zero]
  rw [after]
  omega

/-! ## All nonterminals -/

/-- Factoring makes a grammar at most twice as large. -/
theorem size_factorAll (h : g.factorAll.outcome = .ok last) : last.size ≤ 2 * g.size := by
  have bound : last.size + last.symbolsOf [] ≤ g.size + g.symbolsOf g.nonterminals := by
    refine factorAll_induction
      (P := fun G names => G.size + G.symbolsOf names ≤ g.size + g.symbolsOf g.nonterminals)
      (Nat.le_refl _) ?_ h
    intro G G' name names tails listed rule factored so_far
    have step := size_add_symbolsOf_factorRule (listed.declared name List.mem_cons_self) factored
    have same := symbolsOf_congr (rule.alternatives_listed listed)
    rw [symbolsOf_cons] at so_far
    rw [symbolsOf_append, same]
    omega
  have := g.symbolsOf_nonterminals_le
  omega

/-! ## Rounds -/

/-- Every round begins with the given grammar or with one that is no larger than the limit. -/
theorem RoundStart.size_le (start : RoundStart ceiling sizeLimit g G) :
    G = g ∨ (G.size : Int) ≤ sizeLimit := by
  cases start with
  | first => exact Or.inl rfl
  | next _ _ expanded =>
    obtain ⟨r, -, fits, rfl⟩ := expandRound_eq_some expanded
    exact Or.inr fits

/-- The budget of left factoring bounds the result. It is at most twice as large as the given
grammar may grow, or as that grammar itself, and no more rounds are spent than there are. -/
theorem leftFactorBelow_withinBudget {budget : FactorBudget} {result : Factored}
    (returned : (leftFactorBelow ceiling budget g).outcome = .ok result) :
    (result.grammar.size : Int) ≤ 2 * max 1 budget.maxGrowth * g.size ∧
      0 ≤ (result.rounds : Int) ∧ (result.rounds : Int) ≤ max 0 budget.maxRounds := by
  obtain ⟨spent, G, last, start, factored, same⟩ := leftFactorBelow_exit returned
  refine ⟨?_, Int.natCast_nonneg _, by omega⟩
  have doubled : result.grammar.size ≤ 2 * G.size := by
    rw [same]
    show last.size ≤ 2 * G.size
    exact size_factorAll factored
  have size := Int.natCast_nonneg g.size
  have beginning : (G.size : Int) ≤ max 1 budget.maxGrowth * g.size := by
    rcases start.size_le with rfl | limited
    · calc (g.size : Int) = 1 * g.size := (one_mul _).symm
        _ ≤ max 1 budget.maxGrowth * g.size :=
          mul_le_mul_of_nonneg_right (le_max_left _ _) size
    · exact limited.trans (mul_le_mul_of_nonneg_right (le_max_right _ _) size)
  calc (result.grammar.size : Int) ≤ 2 * G.size := by exact_mod_cast doubled
    _ ≤ 2 * (max 1 budget.maxGrowth * g.size) :=
      mul_le_mul_of_nonneg_left beginning (by decide)
    _ = 2 * max 1 budget.maxGrowth * g.size := (mul_assoc _ _ _).symm

/-- `calls` after one round: there is a conflict left, and expanding it makes the grammar larger
than it was. -/
def callsUndone : Grammar :=
  { assemble (some "s")
      [("s", [[.nonterminal "call", .terminal .semicolon],
         [.terminal .identifier, .terminal .equals, .terminal .integer]]),
       ("call", [[.terminal .identifier, .nonterminal "__lf1"]]),
       ("__lf1", [[.terminal .openParen, .terminal .closeParen], []])]
      [("__lf1", ⟨.factor, "call"⟩)] with counter := 1 }

theorem leftFactorBelow_withinBudget_calls :
    (leftFactor ⟨16, -3, true⟩ calls).outcome
        = .ok ⟨callsUndone, [⟨"s", .identifier, [0, 1]⟩], 1⟩ ∧
      calls.size = 13 ∧ callsUndone.size = 14 ∧ (callsUndone.size : Int) ≤ 2 * 1 * 13 := by
  have returned : (leftFactorBelow expansionCeiling ⟨16, -3, true⟩ calls).outcome
      = .ok ⟨callsUndone, [⟨"s", .identifier, [0, 1]⟩], 1⟩ := by decide +kernel
  have size : calls.size = 13 := by rfl
  obtain ⟨bound, -, -⟩ := leftFactorBelow_withinBudget returned
  rw [size] at bound
  exact ⟨returned, size, by rfl, bound⟩

end Grammar

end TopDown
