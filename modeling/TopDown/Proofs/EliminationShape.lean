import TopDown.Proofs.RecursionFree

/-
  What a grammar looks like when its left recursion has been removed.

  The nonterminals that were there begin no alternative with themselves or with one declared before
  them. Each one that was made up is the tail of exactly one of them (`IsTail`): it is on record as
  such, all alternatives of its owner end with it, and its own alternatives are repetitions, each
  with the tail at its end, and the empty one last. No alternative comes twice.

  Nothing here asks for a grammar without nullable nonterminals or cycles. An alternative that can
  be left out may bring any nonterminal to the front when it is spliced in, but splicing goes on
  until no earlier one stands there (`unled_of_mem_expanded`). What is dealt with is not touched
  again, so the shape is kept from one nonterminal to the next (`Shaped.splitRecursion`).
-/

namespace TopDown

namespace Alternative

variable {alt : Alternative} {name : String}

theorem distinct_map {f : Alternative → Alternative} (injective : Function.Injective f)
    (alts : List Alternative) : distinct (alts.map f) = (distinct alts).map f := by
  induction alts with
  | nil => rfl
  | cons alt rest ih =>
    rw [List.map_cons, distinct, ih, distinct, List.map_cons, List.filter_map]
    simp only [Function.comp_def, ne_eq, injective.eq_iff]

/-- An alternative that is not empty keeps its beginning when something is put after it. -/
theorem startsWith_append {closing : Alternative} (full : alt ≠ []) :
    startsWith name (alt ++ closing) = startsWith name alt := by
  obtain ⟨a, rest, rfl⟩ := List.exists_cons_of_ne_nil full
  rfl

end Alternative

namespace Grammar

variable {g G G' : Grammar} {name owner tail other : String} {alts : List Alternative}
  {earlier later : List String} {ceiling : Nat}

theorem mem_directlyLeftRecursive :
    name ∈ g.directlyLeftRecursive ↔
      ∃ alt ∈ g.alternatives name, Alternative.startsWith name alt = true := by
  unfold directlyLeftRecursive
  simp only [List.mem_map, List.mem_filter, List.any_eq_true, Prod.exists, exists_and_right,
    exists_eq_right, Catalog.mem_entries_iff]
  constructor
  · rintro ⟨alts, onFile, alt, halt, starts⟩
    exact ⟨alt, mem_alternatives_iff.2 ⟨alts, onFile, halt⟩, starts⟩
  · rintro ⟨alt, halt, starts⟩
    obtain ⟨alts, onFile, halt⟩ := mem_alternatives_iff.1 halt
    exact ⟨alts, onFile, alt, halt, starts⟩

/-! ## Tails -/

/-- `tail` holds the repetition that was split off `owner`. -/
structure IsTail (G : Grammar) (owner tail : String) : Prop where
  origin : G.origins.get? tail = some ⟨.leftRecursion, owner⟩
  based : G.alternatives owner ≠ []
  closes : ∀ alt ∈ G.alternatives owner, ∃ front, alt = front ++ [.nonterminal tail]
  repeats : ∃ bodies : List Alternative, bodies ≠ [] ∧
    (∀ body ∈ bodies, body ≠ [] ∧ ¬ Alternative.startsWith tail body = true) ∧
      G.alternatives tail = bodies.map (· ++ [.nonterminal tail]) ++ [[]]

namespace IsTail

/-- A nonterminal has one tail only: its alternatives end with it. -/
theorem unique (h : G.IsTail owner tail) (h' : G.IsTail owner other) : other = tail := by
  obtain ⟨alt, halt⟩ := List.exists_mem_of_ne_nil _ h.based
  obtain ⟨front, rfl⟩ := h.closes alt halt
  obtain ⟨front', same⟩ := h'.closes _ halt
  have last := congrArg List.getLast? same
  rw [List.getLast?_concat, List.getLast?_concat, Option.some.injEq] at last
  exact (Symbol.nonterminal.inj last).symm

/-- A tail belongs to one nonterminal only. -/
theorem owner_unique (h : G.IsTail owner tail) (h' : G.IsTail other tail) : other = owner := by
  have same := h'.origin.symm.trans h.origin
  rw [Option.some.injEq, Origin.mk.injEq] at same
  exact same.2

/-- What does not touch the owner, the tail or its origin leaves it a tail. -/
theorem congr (h : G.IsTail owner tail) (ofOwner : G'.alternatives owner = G.alternatives owner)
    (ofTail : G'.alternatives tail = G.alternatives tail)
    (onRecord : G'.origins.get? tail = G.origins.get? tail) : G'.IsTail owner tail := by
  refine ⟨onRecord.trans h.origin, ?_, ?_, ?_⟩
  · rw [ofOwner]
    exact h.based
  · rw [ofOwner]
    exact h.closes
  · rw [ofTail]
    exact h.repeats

/-- No alternative of a tail begins with the tail. -/
theorem not_startsWith (h : G.IsTail owner tail) :
    ∀ alt ∈ G.alternatives tail, ¬ Alternative.startsWith tail alt = true := by
  obtain ⟨bodies, -, proper, all⟩ := h.repeats
  intro alt halt
  rw [all, List.mem_append, List.mem_map, List.mem_singleton] at halt
  rcases halt with ⟨body, hbody, rfl⟩ | rfl
  · obtain ⟨full, unled⟩ := proper body hbody
    rwa [Alternative.startsWith_append full]
  · exact Bool.false_ne_true

end IsTail

section WithTail

variable (mentions : ∀ alt ∈ alts, ∀ s ∈ alt, G.Mentions s) (hname : name ∈ G.nonterminals)

include mentions hname in
theorem isTail_withTail (based : bases name alts ≠ []) (repeated : repetitions name alts ≠ []) :
    (G.withTail name alts).IsTail name (G.recursionTail name).1 where
  origin := origin_withTail.2 (Or.inl ⟨rfl, rfl⟩)
  based := by
    rw [alternatives_withTail_owner hname]
    simpa using based
  closes alt halt := by
    rw [alternatives_withTail_owner hname, List.mem_map] at halt
    obtain ⟨front, -, rfl⟩ := halt
    exact ⟨front, rfl⟩
  repeats := by
    refine ⟨Alternative.distinct (repetitions name alts), ?_, ?_, ?_⟩
    · obtain ⟨body, hbody⟩ := List.exists_mem_of_ne_nil _ repeated
      exact List.ne_nil_of_mem (Alternative.mem_distinct.2 hbody)
    · intro body hbody
      obtain ⟨full, recursive⟩ := mem_repetitions.1 (Alternative.mem_distinct.1 hbody)
      refine ⟨full, fun starts => ?_⟩
      -- the tail is new, so it stands in no alternative there was
      have unmentioned : ¬ G.Mentions (.nonterminal (G.recursionTail name).1) :=
        synthesize_not_mentions
      obtain ⟨rest, rfl⟩ := Alternative.startsWith_iff.1 starts
      exact unmentioned (mentions _ recursive _ (by simp))
    · rw [alternatives_withTail_tail, Alternative.distinct_map (List.append_left_injective _)]

theorem nodup_withTail_tail :
    ((G.withTail name alts).alternatives (G.recursionTail name).1).Nodup := by
  rw [alternatives_withTail_tail, List.nodup_append]
  refine ⟨Alternative.nodup_distinct _, List.nodup_singleton _, ?_⟩
  intro alt halt empty hempty same
  rw [Alternative.mem_distinct, List.mem_map] at halt
  rw [List.mem_singleton] at hempty
  obtain ⟨body, -, rfl⟩ := halt
  rw [hempty] at same
  exact absurd same (by simp)

end WithTail

/-! ## What the pass keeps -/

/-- What holds of the grammar `G` that `g` has become when the earlier nonterminals have been dealt
with. -/
structure Shaped (g G : Grammar) (earlier : List String) : Prop where
  kept : ∀ name ∈ g.nonterminals, name ∈ G.nonterminals
  forward : ∀ name ∈ earlier, ∀ alt ∈ G.alternatives name, ∀ lead ∈ g.nonterminals,
    Alternative.startsWith lead alt = true →
      g.nonterminals.idxOf name < g.nonterminals.idxOf lead
  once : ∀ name ∈ earlier, (G.alternatives name).Nodup
  tails : ∀ tail ∈ G.nonterminals, tail ∉ g.nonterminals →
    (G.alternatives tail).Nodup ∧ ∃ owner ∈ earlier, G.IsTail owner tail

theorem Shaped.thaw (g : Grammar) : Shaped g g.thaw [] where
  kept _ h := h
  forward _ h := absurd h List.not_mem_nil
  once _ h := absurd h List.not_mem_nil
  tails _ declared new := absurd declared new

theorem Shaped.freeze (h : Shaped g G earlier) : Shaped g G.freeze earlier := by
  refine ⟨h.kept, h.forward, h.once, fun tail declared new => ?_⟩
  obtain ⟨once, owner, howner, isTail⟩ := h.tails tail declared new
  exact ⟨once, owner, howner, isTail.congr rfl rfl rfl⟩

section Step

variable (so_far : Shaped g G earlier) (whole : earlier ++ name :: later = g.nonterminals)
  (expanded : G.expandedAlternatives ceiling earlier name = .ok alts)

include whole expanded in
/-- A base begins with a later nonterminal, if it begins with one that was there. -/
theorem idxOf_lt_of_mem_bases {base : Alternative} (hbase : base ∈ bases name alts) {lead : String}
    (declared : lead ∈ g.nonterminals) (starts : Alternative.startsWith lead base = true) :
    g.nonterminals.idxOf name < g.nonterminals.idxOf lead := by
  obtain ⟨hmem, other⟩ := mem_bases.1 hbase
  obtain ⟨rest, rfl⟩ := Alternative.startsWith_iff.1 starts
  have late : lead ∉ earlier := by
    intro early
    exact unled_of_mem_expanded expanded _ hmem lead early rest rfl
  have ne : lead ≠ name := by
    rintro rfl
    exact other starts
  have after : lead ∈ later := by
    rw [← whole, List.mem_append, List.mem_cons] at declared
    exact (declared.resolve_left late).resolve_left ne
  rw [← whole]
  exact idxOf_lt_of_mem_after (whole ▸ g.nodup_nonterminals) after

include so_far whole expanded in
/-- The step, for both things that can become of the expanded alternatives: the bases stay, with
something after them that begins with nothing that was there. -/
theorem Shaped.step (closing : Alternative) (new : List String)
    (madeUp : ∀ lead ∈ g.nonterminals, ¬ Alternative.startsWith lead closing = true)
    (ofOwner : G'.alternatives name = (bases name alts).map (· ++ closing))
    (ofOthers : ∀ n ∈ G.nonterminals, n ≠ name → G'.alternatives n = G.alternatives n)
    (onRecord : ∀ n ∈ G.nonterminals, G'.origins.get? n = G.origins.get? n)
    (names : G'.nonterminals = G.nonterminals ++ new)
    (tails : ∀ tail ∈ new, (G'.alternatives tail).Nodup ∧ G'.IsTail name tail) :
    Shaped g G' (earlier ++ [name]) := by
  obtain ⟨hname, unmet⟩ := mem_nonterminals_of_order whole
  have before : ∀ n ∈ earlier, n ∈ G.nonterminals ∧ n ≠ name := by
    intro n hn
    refine ⟨so_far.kept n (whole ▸ List.mem_append_left _ hn), ?_⟩
    rintro rfl
    exact unmet hn
  have unchanged : ∀ n ∈ earlier, G'.alternatives n = G.alternatives n :=
    fun n hn => ofOthers n (before n hn).1 (before n hn).2
  refine ⟨?_, ?_, ?_, ?_⟩
  · intro n hn
    rw [names]
    exact List.mem_append_left _ (so_far.kept n hn)
  · intro n hn alt halt lead declared starts
    rcases List.mem_append.1 hn with hn | hn
    · rw [unchanged n hn] at halt
      exact so_far.forward n hn alt halt lead declared starts
    · obtain rfl := List.mem_singleton.1 hn
      rw [ofOwner, List.mem_map] at halt
      obtain ⟨base, hbase, rfl⟩ := halt
      by_cases empty : base = []
      · rw [empty, List.nil_append] at starts
        exact absurd starts (madeUp lead declared)
      · rw [Alternative.startsWith_append empty] at starts
        exact idxOf_lt_of_mem_bases whole expanded hbase declared starts
  · intro n hn
    rcases List.mem_append.1 hn with hn | hn
    · rw [unchanged n hn]
      exact so_far.once n hn
    · obtain rfl := List.mem_singleton.1 hn
      rw [ofOwner]
      exact ((nodup_expanded expanded).filter _).map (List.append_left_injective closing)
  · intro tail declared madeUp
    rw [names, List.mem_append] at declared
    rcases declared with old | made
    · obtain ⟨once, owner, howner, isTail⟩ := so_far.tails tail old madeUp
      have ne : tail ≠ name := by
        rintro rfl
        exact madeUp hname
      have same := ofOthers tail old ne
      refine ⟨same ▸ once, owner, List.mem_append_left _ howner, ?_⟩
      exact isTail.congr (unchanged owner howner) same (onRecord tail old)
    · obtain ⟨once, isTail⟩ := tails tail made
      exact ⟨once, name, List.mem_append_right _ List.mem_cons_self, isTail⟩

include so_far whole expanded in
theorem Shaped.dropLoops : Shaped g (G.setRule name (bases name alts)) (earlier ++ [name]) := by
  obtain ⟨hname, -⟩ := mem_nonterminals_of_order whole
  have names := nonterminals_setRule (bases name alts) (so_far.kept name hname)
  refine so_far.step whole expanded [] [] ?_ ?_ ?_ ?_ ?_ ?_
  · exact fun _ _ => Bool.false_ne_true
  · rw [alternatives_setRule_self]
    simp
  · exact fun n _ hn => alternatives_setRule_of_ne hn
  · exact fun n _ => rfl
  · rw [names, List.append_nil]
  · exact fun tail h => absurd h List.not_mem_nil

include so_far whole expanded in
theorem Shaped.withTail (based : bases name alts ≠ []) (repeated : repetitions name alts ≠ []) :
    Shaped g (G.withTail name alts) (earlier ++ [name]) := by
  obtain ⟨hname, -⟩ := mem_nonterminals_of_order whole
  have declared := so_far.kept name hname
  have mentions := mentions_of_mem_expanded expanded
  have fresh : (G.recursionTail name).1 ∉ G.nonterminals := synthesize_notMem_nonterminals
  refine so_far.step whole expanded _ _ ?_ (alternatives_withTail_owner declared) ?_ ?_
    (nonterminals_withTail alts declared) ?_
  · intro lead hlead starts
    obtain ⟨rest, same⟩ := Alternative.startsWith_iff.1 starts
    have tail : (G.recursionTail name).1 = lead := Symbol.nonterminal.inj (List.cons.inj same).1
    exact fresh (tail ▸ so_far.kept lead hlead)
  · intro n hn ne
    refine alternatives_withTail_of_ne ne ?_
    rintro rfl
    exact fresh hn
  · intro n hn
    refine Option.ext fun origin => origin_withTail.trans ?_
    have ne : n ≠ (G.recursionTail name).1 := by
      rintro rfl
      exact fresh hn
    simp [ne]
  · intro tail htail
    obtain rfl := List.mem_singleton.1 htail
    exact ⟨nodup_withTail_tail, isTail_withTail mentions declared based repeated⟩

include so_far whole expanded in
theorem Shaped.splitRecursion (split : (G.splitRecursion name alts).outcome = .ok G') :
    Shaped g G' (earlier ++ [name]) := by
  obtain ⟨based, ⟨-, rfl⟩ | ⟨repeated, rfl⟩⟩ := splitRecursion_cases split
  · exact so_far.dropLoops whole expanded
  · obtain ⟨body, hbody⟩ := List.exists_mem_of_ne_nil _ repeated
    have recursive := (mem_repetitions.1 hbody).2
    exact so_far.withTail whole expanded (based (List.ne_nil_of_mem recursive)) repeated

end Step

/-! ## The whole pass -/

theorem shaped_of_eliminateBelow {g' : Grammar}
    (returned : (g.eliminateBelow ceiling).outcome = .ok g') : Shaped g g' g.nonterminals := by
  obtain ⟨last, shaped, rfl⟩ := eliminateBelow_induction (P := Shaped g) (.thaw g)
    (fun whole so_far expanded split => so_far.splitRecursion whole expanded split) returned
  exact shaped.freeze

/-- No alternative comes twice, be it of a nonterminal that was there or of a tail. -/
theorem Shaped.nodup (shaped : Shaped g G g.nonterminals) (name : String) :
    (G.alternatives name).Nodup := by
  by_cases original : name ∈ g.nonterminals
  · exact shaped.once name original
  · by_cases declared : name ∈ G.nonterminals
    · exact (shaped.tails name declared original).1
    · rw [alternatives_eq_nil declared]
      exact List.nodup_nil

theorem Shaped.directlyLeftRecursive (shaped : Shaped g G g.nonterminals) :
    G.directlyLeftRecursive = [] := by
  refine List.eq_nil_iff_forall_not_mem.2 fun name found => ?_
  obtain ⟨alt, halt, starts⟩ := mem_directlyLeftRecursive.1 found
  by_cases original : name ∈ g.nonterminals
  · have ahead := shaped.forward name original alt halt name original starts
    omega
  · have declared := mem_nonterminals_of_mem_alternatives halt
    obtain ⟨-, owner, -, isTail⟩ := shaped.tails name declared original
    exact isTail.not_startsWith alt halt starts

/-- The shape of a grammar whose left recursion has been removed, whatever the nesting ceiling under
which the pass comes to an end.

A nonterminal that was there begins no alternative with itself or with one declared before it. No
nonterminal has an alternative twice. A nonterminal that is new is the one tail of exactly one that
was there. And no nonterminal, new or not, has an alternative that begins with itself. -/
theorem eliminateBelow_shape {g' : Grammar}
    (returned : (g.eliminateBelow ceiling).outcome = .ok g') :
    (∀ name ∈ g.nonterminals, ∀ alt ∈ g'.alternatives name, ∀ lead ∈ g.nonterminals,
      g.nonterminals.idxOf lead ≤ g.nonterminals.idxOf name →
        ¬ Alternative.startsWith lead alt = true) ∧
      (∀ name, (g'.alternatives name).Nodup) ∧
      (∀ tail ∈ g'.nonterminals, tail ∉ g.nonterminals →
        ∃! owner, owner ∈ g.nonterminals ∧ g'.IsTail owner tail ∧
          ∀ other, g'.IsTail owner other → other = tail) ∧
      g'.directlyLeftRecursive = [] := by
  have shaped := shaped_of_eliminateBelow returned
  refine ⟨?_, shaped.nodup, ?_, shaped.directlyLeftRecursive⟩
  · intro name hname alt halt lead hlead before starts
    have after := shaped.forward name hname alt halt lead hlead starts
    omega
  · intro tail declared new
    obtain ⟨-, owner, howner, isTail⟩ := shaped.tails tail declared new
    refine ⟨owner, ⟨howner, isTail, fun other h => isTail.unique h⟩, ?_⟩
    rintro owner' ⟨-, isTail', -⟩
    exact isTail.owner_unique isTail'

/-- What can be left out stands before a nonterminal in its own rule. -/
def uncovered : Grammar :=
  assemble (some "y")
    [("x", [[.terminal .comma], []]),
     ("y", [[.nonterminal "x", .nonterminal "x", .nonterminal "y", .terminal .semicolon],
       [.terminal .integer]])] []

/-- `uncovered` without left recursion: when both commas are left out, the nonterminal stands
first. -/
def uncoveredWithTail : Grammar :=
  { assemble (some "y")
      [("x", [[.terminal .comma], []]),
       ("y", [[.terminal .comma, .nonterminal "x", .nonterminal "y", .terminal .semicolon,
           .nonterminal "__lr1"],
         [.terminal .comma, .nonterminal "y", .terminal .semicolon, .nonterminal "__lr1"],
         [.terminal .integer, .nonterminal "__lr1"]]),
       ("__lr1", [[.terminal .semicolon, .nonterminal "__lr1"], []])]
      [("__lr1", ⟨.leftRecursion, "y"⟩)] with counter := 1 }

theorem eliminateBelow_shape_uncovered :
    uncovered.eliminateLeftRecursion.outcome = .ok uncoveredWithTail ∧
      "__lr1" ∈ uncoveredWithTail.nonterminals ∧ "__lr1" ∉ uncovered.nonterminals ∧
      uncoveredWithTail.IsTail "y" "__lr1" ∧ uncoveredWithTail.directlyLeftRecursive = [] := by
  have returned : (uncovered.eliminateBelow expansionCeiling).outcome = .ok uncoveredWithTail := by
    rfl
  have declared : "__lr1" ∈ uncoveredWithTail.nonterminals := by decide
  have new : "__lr1" ∉ uncovered.nonterminals := by decide
  obtain ⟨-, -, tails, straight⟩ := eliminateBelow_shape returned
  obtain ⟨owner, ⟨-, isTail, -⟩, -⟩ := tails "__lr1" declared new
  have onRecord : uncoveredWithTail.origins.get? "__lr1" = some ⟨.leftRecursion, "y"⟩ := by rfl
  have same := onRecord.symm.trans isTail.origin
  rw [Option.some.injEq, Origin.mk.injEq] at same
  exact ⟨returned, declared, new, same.2 ▸ isTail, straight⟩

end Grammar

end TopDown
