import TopDown.Proofs.Elimination
import TopDown.Proofs.LeftRecursion

/-
  Removing left recursion leaves none, in a grammar where no nonterminal derives the empty word or,
  in one or more steps, itself.

  While the pass runs, the alternatives of a nonterminal that has been dealt with begin with a
  terminal or with a nonterminal declared later (`Ascending`). Splicing therefore moves the front of
  an alternative strictly forward in the order of declarations, and an expansion nests at most one
  call more than there are nonterminals (`exists_expand`).

  Tails can be left out, and they are spliced into later alternatives and into later tails. Two
  things keep them from hiding a recursion. A tail refers only to tails made before it. And with the
  tails struck out, an alternative is still derived from its nonterminal in the given grammar
  (`Ranked.traced`): an alternative `A → A β` in which `β` holds nothing but tails would be a cycle
  `A ⇒ … ⇒ A` there, so every repetition holds a symbol that cannot be left out.

  `rank` puts both together: originals by how many are declared after them, tails above all of them
  in the order of their making. Along every chain of leaders it goes down (`Ranked.rank_lt`).
-/

namespace TopDown

namespace Traced

variable {α β : Type}

/-- The transformation returns, or fails at a nonterminal whose recursion is unfixable. -/
def Ends (x : Traced α) : Prop :=
  (∃ a, x.outcome = .ok a) ∨ ∃ name, x.outcome = .error (.unfixable name)

theorem Ends.bind {x : Traced α} {f : α → Traced β} (first : x.Ends)
    (second : ∀ a, x.outcome = .ok a → (f a).Ends) : (x >>= f).Ends := by
  unfold Ends
  rw [outcome_bind]
  rcases first with ⟨a, ha⟩ | ⟨name, hname⟩
  · rw [ha]
    exact second a ha
  · rw [hname]
    exact Or.inr ⟨name, rfl⟩

end Traced

namespace Grammar

variable {g G G' : Grammar} {name other : String} {alt : Alternative} {alts : List Alternative}
  {order earlier later names : List String} {ceiling : Nat}

/-! ## Expansions that end -/

/-- The alternative begins with a terminal or with one of the names. -/
def HeadIn (names : List String) (alt : Alternative) : Prop :=
  ∃ a rest, alt = a :: rest ∧ ∀ name, a = .nonterminal name → name ∈ names

theorem HeadIn.append (h : HeadIn names alt) (more : Alternative) : HeadIn names (alt ++ more) := by
  obtain ⟨a, rest, rfl, listed⟩ := h
  exact ⟨a, rest ++ more, rfl, listed⟩

theorem HeadIn.mem {rest : Alternative} (h : HeadIn names (.nonterminal name :: rest)) :
    name ∈ names := by
  obtain ⟨a, more, same, listed⟩ := h
  exact listed name (List.cons.inj same).1.symm

/-- The alternatives of the earlier names begin with a terminal or with a name that comes after
their own in the order. -/
def Ascending (G : Grammar) (order earlier : List String) : Prop :=
  ∀ before name after, order = before ++ name :: after → name ∈ earlier →
    ∀ alt ∈ G.alternatives name, HeadIn after alt

/-- An alternative that begins among the last names of the order is expanded within as many calls,
one inside the other, as there are such names, and one. -/
theorem exists_expand (ascending : G.Ascending order earlier) {before : List String}
    (suffix : order = before ++ names) (head : HeadIn names alt) (room : names.length < ceiling)
    (acc : Expansion) : ∃ acc', G.expand earlier ceiling acc alt = some acc' := by
  induction ceiling generalizing before names alt acc with
  | zero => omega
  | succ ceiling ih =>
    refine exists_expand_succ ?_ acc
    rintro lead rest rfl hlead sub hsub acc
    -- what is spliced in begins after `lead`, so there are fewer names left
    obtain ⟨front, back, rfl⟩ := List.append_of_mem head.mem
    obtain ⟨spliced, hspliced, rfl⟩ := List.mem_map.1 hsub
    have split : order = (before ++ front) ++ lead :: back := by
      rw [suffix, List.append_assoc]
    have later := ascending _ lead back split hlead spliced hspliced
    have rest_order : order = (before ++ front ++ [lead]) ++ back := by
      rw [split, List.append_assoc _ [lead], List.singleton_append]
    refine ih rest_order (later.append rest) ?_ acc
    rw [List.length_append, List.length_cons] at room
    omega

/-- Moving the recursion of a nonterminal into a tail fails only where there is no base. -/
theorem splitRecursion_ends (g : Grammar) (name : String) (alts : List Alternative) :
    (g.splitRecursion name alts).Ends := by
  unfold splitRecursion
  rw [List.partition_eq_filter_filter]
  dsimp only
  split
  · exact Or.inl ⟨_, rfl⟩
  · split
    · exact Or.inr ⟨name, rfl⟩
    · split
      · exact Or.inl ⟨_, rfl⟩
      · exact Or.inl ⟨_, rfl⟩

/-- Where every expansion ends, so does the pass. -/
theorem eliminateBelow_ends {P : Grammar → List String → Prop}
    (valid : g.validate = .ok ()) (start : P g.thaw [])
    (step : ∀ {G G' : Grammar} {earlier later : List String} {name : String}
      {alts : List Alternative}, earlier ++ name :: later = g.nonterminals → P G earlier →
      G.expandedAlternatives ceiling earlier name = .ok alts →
      (G.splitRecursion name alts).outcome = .ok G' → P G' (earlier ++ [name]))
    (expands : ∀ {G : Grammar} {earlier later : List String} {name : String},
      earlier ++ name :: later = g.nonterminals → P G earlier →
      ∃ alts, G.expandedAlternatives ceiling earlier name = .ok alts) :
    (g.eliminateBelow ceiling).Ends := by
  have run : ∀ (rest : List String) (G : Grammar) (earlier : List String),
      earlier ++ rest = g.nonterminals → P G earlier →
      (rest.foldlM (eliminateIn ceiling) (G, earlier)).Ends := by
    intro rest
    induction rest with
    | nil => exact fun G earlier _ _ => Or.inl ⟨(G, earlier), rfl⟩
    | cons name rest ih =>
      intro G earlier whole so_far
      rw [List.foldlM_cons]
      refine Traced.Ends.bind ?_ ?_
      · refine Traced.Ends.bind (Or.inl (expands whole so_far)) fun alts _ => ?_
        refine Traced.Ends.bind (splitRecursion_ends G name alts) fun G' _ => ?_
        exact Or.inl ⟨_, rfl⟩
      · intro state dealt
        obtain ⟨alts, expanded, dealt⟩ := Traced.outcome_bind_eq_ok.1 dealt
        obtain ⟨G', split, dealt⟩ := Traced.outcome_bind_eq_ok.1 dealt
        cases dealt
        refine ih G' (earlier ++ [name]) ?_ (step whole so_far expanded split)
        rw [List.append_assoc]
        exact whole
  unfold eliminateBelow
  refine Traced.Ends.bind (Or.inl ⟨(), valid⟩) fun _ _ => ?_
  refine Traced.Ends.bind (run g.nonterminals g.thaw [] rfl start) fun state _ => ?_
  exact Or.inl ⟨_, rfl⟩

/-! ## Symbols of the given grammar -/

/-- The grammars that the classical elimination is made for: all references are declared, and no
nonterminal derives the empty word or, in one or more steps, itself. -/
structure Proper (g : Grammar) : Prop where
  declared : ∀ name, g.Mentions (.nonterminal name) → name ∈ g.nonterminals
  nonempty : ∀ name, ¬ g.Derives [.nonterminal name] []
  acyclic : ∀ name, ¬ Relation.TransGen g.Rewrites [.nonterminal name] [.nonterminal name]

theorem Proper.headIn (proper : g.Proper) (halt : alt ∈ g.alternatives name) :
    HeadIn g.nonterminals alt := by
  cases alt with
  | nil => exact absurd (derives_of_alternative halt .refl) (proper.nonempty name)
  | cons a rest =>
    refine ⟨a, rest, rfl, ?_⟩
    rintro other rfl
    exact proper.declared other ⟨name, _, halt, List.mem_cons_self⟩

/-- Terminals and declared nonterminals. -/
def isOriginal (g : Grammar) : Symbol → Bool
  | .terminal _ => true
  | .nonterminal name => name ∈ g.nonterminals

/-- What is left of symbols when all that `g` does not declare is struck out. -/
def core (g : Grammar) (s : List Symbol) : List Symbol :=
  s.filter g.isOriginal

@[simp] theorem core_append (s t : List Symbol) : g.core (s ++ t) = g.core s ++ g.core t :=
  List.filter_append ..

theorem core_cons_of_mem (h : name ∈ g.nonterminals) (s : List Symbol) :
    g.core (.nonterminal name :: s) = .nonterminal name :: g.core s :=
  List.filter_cons_of_pos (decide_eq_true h)

theorem core_singleton_of_notMem (h : name ∉ g.nonterminals) : g.core [.nonterminal name] = [] :=
  List.filter_cons_of_neg (by simpa [isOriginal] using h)

/-- The alternatives of a proper grammar are all original. -/
theorem Proper.core_eq (proper : g.Proper) (halt : alt ∈ g.alternatives name) :
    g.core alt = alt := by
  refine List.filter_eq_self.2 fun a ha => ?_
  cases a with
  | terminal kind => rfl
  | nonterminal other => exact decide_eq_true (proper.declared other ⟨name, alt, halt, ha⟩)

/-! ## Names in order -/

theorem idxOf_lt_of_mem_before {before after : List String}
    (nodup : (before ++ name :: after).Nodup) (h : other ∈ before) :
    (before ++ name :: after).idxOf other < (before ++ name :: after).idxOf name := by
  have apart : name ∉ before := by
    intro hname
    exact (List.nodup_append.1 nodup).2.2 name hname name List.mem_cons_self rfl
  rw [List.idxOf_append_of_mem h, List.idxOf_append_of_notMem apart]
  have := List.idxOf_lt_length_of_mem h
  omega

theorem idxOf_lt_of_mem_after {before after : List String}
    (nodup : (before ++ name :: after).Nodup) (h : other ∈ after) :
    (before ++ name :: after).idxOf name < (before ++ name :: after).idxOf other := by
  have whole : before ++ name :: after = (before ++ [name]) ++ after := by simp
  have apart : other ∉ before ++ [name] := by
    intro hother
    rw [whole] at nodup
    exact (List.nodup_append.1 nodup).2.2 other hother other h rfl
  have listed : name ∈ before ++ [name] := by simp
  rw [whole, List.idxOf_append_of_mem listed, List.idxOf_append_of_notMem apart]
  have := List.idxOf_lt_length_of_mem listed
  omega

/-! ## What the pass keeps -/

/-- What an alternative of a tail looks like: it is empty, or it holds an original symbol before the
tail itself and refers there only to nonterminals that come before the tail in the order. -/
def TailShape (g : Grammar) (order : List String) (name : String) (alt : Alternative) : Prop :=
  alt = [] ∨ ∃ body, alt = body ++ [.nonterminal name] ∧ g.core body ≠ [] ∧
    ∃ before after, order = before ++ name :: after ∧
      ∀ other, .nonterminal other ∈ body → other ∈ before

theorem TailShape.append (h : TailShape g order name alt) (new : List String) :
    TailShape g (order ++ new) name alt := by
  rcases h with rfl | ⟨body, rfl, solid, before, after, rfl, older⟩
  · exact Or.inl rfl
  · refine Or.inr ⟨body, rfl, solid, before, after ++ new, ?_, older⟩
    rw [List.append_assoc, List.cons_append]

/-- What holds of the grammar `G` that `g` has become when the earlier nonterminals have been dealt
with. -/
structure Ranked (g G : Grammar) (earlier : List String) : Prop where
  kept : ∀ name ∈ g.nonterminals, name ∈ G.nonterminals
  declared : ∀ name, G.Mentions (.nonterminal name) → name ∈ G.nonterminals
  untouched : ∀ name ∈ g.nonterminals, name ∉ earlier → G.alternatives name = g.alternatives name
  traced : ∀ name ∈ g.nonterminals, ∀ alt ∈ G.alternatives name,
    Relation.TransGen g.Rewrites [.nonterminal name] (g.core alt)
  ascending : G.Ascending g.nonterminals earlier
  tails : ∀ name, name ∉ g.nonterminals → ∀ alt ∈ G.alternatives name,
    TailShape g G.nonterminals name alt

theorem Proper.ranked_thaw (proper : g.Proper) : Ranked g g.thaw [] where
  kept _ h := h
  declared := proper.declared
  untouched _ _ _ := rfl
  traced name _ alt halt := by
    rw [proper.core_eq halt]
    have step := Rewrites.replace (g := g) [] [] halt
    exact .single (by simpa using step)
  ascending _ _ _ _ h := absurd h List.not_mem_nil
  tails name new alt halt := absurd (mem_nonterminals_of_mem_alternatives (g := g) halt) new

theorem Ranked.freeze (h : Ranked g G earlier) : Ranked g G.freeze earlier :=
  ⟨h.kept, h.declared, h.untouched, h.traced, h.ascending, h.tails⟩

section Step

variable (so_far : Ranked g G earlier) (proper : g.Proper)
  (whole : earlier ++ name :: later = g.nonterminals)
  (expanded : G.expandedAlternatives ceiling earlier name = .ok alts)

include so_far proper whole in
theorem Ranked.headIn (halt : alt ∈ G.alternatives name) : HeadIn g.nonterminals alt := by
  obtain ⟨hname, unmet⟩ := mem_nonterminals_of_order whole
  rw [so_far.untouched name hname unmet] at halt
  exact proper.headIn halt

include so_far whole expanded in
/-- With the tails struck out, what expansion gives is derived in the given grammar. -/
theorem Ranked.traced_expanded :
    ∀ alt ∈ alts, Relation.TransGen g.Rewrites [.nonterminal name] (g.core alt) := by
  obtain ⟨hname, -⟩ := mem_nonterminals_of_order whole
  refine expandedAlternatives_induction ?_ (so_far.traced name hname) expanded
  intro lead hlead rest so_derived sub hsub
  obtain ⟨front, hfront, rfl⟩ := List.mem_map.1 hsub
  have original : lead ∈ g.nonterminals := whole ▸ List.mem_append_left _ hlead
  rw [core_cons_of_mem original] at so_derived
  rw [core_append]
  exact so_derived.trans (Rewrites.append_right _ (so_far.traced lead original front hfront))

include so_far proper whole expanded in
/-- What expansion gives begins with a terminal, the nonterminal itself or a later one. -/
theorem Ranked.headIn_expanded : ∀ alt ∈ alts, HeadIn (name :: later) alt := by
  have listed : ∀ alt ∈ alts, HeadIn g.nonterminals alt := by
    refine expandedAlternatives_induction ?_ (fun alt => so_far.headIn proper whole) expanded
    intro lead hlead rest head sub hsub
    obtain ⟨front, hfront, rfl⟩ := List.mem_map.1 hsub
    obtain ⟨before, after, split⟩ := List.append_of_mem head.mem
    obtain ⟨a, more, rfl, later⟩ := so_far.ascending before lead after split hlead front hfront
    refine ⟨a, more ++ rest, rfl, fun n hn => ?_⟩
    rw [split]
    exact List.mem_append_right _ (List.mem_cons_of_mem _ (later n hn))
  intro alt halt
  obtain ⟨a, rest, rfl, declared⟩ := listed alt halt
  refine ⟨a, rest, rfl, ?_⟩
  rintro n rfl
  have hn := declared n rfl
  rw [← whole, List.mem_append] at hn
  refine hn.resolve_left fun early => ?_
  exact unled_of_mem_expanded expanded _ halt n early rest rfl

include so_far proper whole expanded in
/-- The step, for both things that can become of the expanded alternatives: those that do not begin
with the nonterminal stay, with something after them that adds no original symbol. -/
theorem Ranked.step {closing : Alternative} {new : List String} (bare : g.core closing = [])
    (owner : ∀ alt ∈ G'.alternatives name, ∃ a ∈ bases name alts, alt = a ++ closing)
    (others : ∀ n ∈ G.nonterminals, n ≠ name → G'.alternatives n = G.alternatives n)
    (names : G'.nonterminals = G.nonterminals ++ new)
    (declared : ∀ n, G'.Mentions (.nonterminal n) → n ∈ G'.nonterminals)
    (tails : ∀ n, n ∉ G.nonterminals → ∀ alt ∈ G'.alternatives n,
      TailShape g G'.nonterminals n alt) : Ranked g G' (earlier ++ [name]) where
  kept n hn := names ▸ List.mem_append_left _ (so_far.kept n hn)
  declared := declared
  untouched n hn unmet := by
    rw [List.mem_append, List.mem_singleton, not_or] at unmet
    rw [others n (so_far.kept n hn) unmet.2]
    exact so_far.untouched n hn unmet.1
  traced n hn alt halt := by
    by_cases same : n = name
    · subst same
      obtain ⟨a, ha, rfl⟩ := owner alt halt
      rw [core_append, bare, List.append_nil]
      exact so_far.traced_expanded whole expanded a (mem_bases.1 ha).1
    · rw [others n (so_far.kept n hn) same] at halt
      exact so_far.traced n hn alt halt
  ascending before n after split dealt alt halt := by
    by_cases same : n = name
    · subst same
      obtain ⟨a, ha, rfl⟩ := owner alt halt
      obtain ⟨hmem, other⟩ := mem_bases.1 ha
      have after_eq : after = later := by
        have nodup : (before ++ n :: after).Nodup := split ▸ g.nodup_nonterminals
        have apart := List.nodup_middle.1 nodup
        rw [List.nodup_cons, List.mem_append, not_or] at apart
        have both : before ++ n :: after = earlier ++ n :: later := split.symm.trans whole.symm
        exact ((List.append_cons_inj_of_notMem apart.1.1 apart.1.2).1 both).2.2
      refine HeadIn.append ?_ closing
      obtain ⟨b, rest, rfl, listed⟩ := so_far.headIn_expanded proper whole expanded a hmem
      refine ⟨b, rest, rfl, ?_⟩
      rintro m rfl
      rw [after_eq]
      refine (List.mem_cons.1 (listed m rfl)).resolve_left ?_
      rintro rfl
      exact other (Alternative.startsWith_iff.2 ⟨rest, rfl⟩)
    · have hn : n ∈ g.nonterminals := split ▸ List.mem_append_right _ List.mem_cons_self
      rw [others n (so_far.kept n hn) same] at halt
      refine so_far.ascending before n after split ?_ alt halt
      exact (List.mem_append.1 dealt).resolve_right fun h => same (List.mem_singleton.1 h)
  tails n hn alt halt := by
    by_cases old : n ∈ G.nonterminals
    · have other : n ≠ name := by
        rintro rfl
        exact hn (mem_nonterminals_of_order whole).1
      rw [others n old other] at halt
      rw [names]
      exact (so_far.tails n hn alt halt).append new
    · exact tails n old alt halt

include so_far proper whole expanded in
theorem Ranked.dropLoops (mentions : ∀ alt ∈ alts, ∀ s ∈ alt, G.Mentions s) :
    Ranked g (G.setRule name (bases name alts)) (earlier ++ [name]) := by
  obtain ⟨hname, -⟩ := mem_nonterminals_of_order whole
  have names := nonterminals_setRule (bases name alts) (so_far.kept name hname)
  have no_closing : g.core [] = [] := rfl
  refine so_far.step proper whole expanded no_closing ?_ ?_ (names.trans (List.append_nil _).symm)
    ?_ ?_
  · intro alt halt
    rw [alternatives_setRule_self] at halt
    exact ⟨alt, halt, (List.append_nil alt).symm⟩
  · exact fun n _ hn => alternatives_setRule_of_ne hn
  · intro n mentioned
    rw [names]
    rcases mentioned.of_setRule with mentioned | ⟨alt, halt, hs⟩
    · exact so_far.declared n mentioned
    · exact so_far.declared n (mentions alt (mem_bases.1 halt).1 _ hs)
  · intro n hn alt halt
    rw [← names] at hn
    exact absurd (mem_nonterminals_of_mem_alternatives halt) hn

include so_far proper whole expanded in
theorem Ranked.withTail (mentions : ∀ alt ∈ alts, ∀ s ∈ alt, G.Mentions s) :
    Ranked g (G.withTail name alts) (earlier ++ [name]) := by
  obtain ⟨hname, -⟩ := mem_nonterminals_of_order whole
  have declaredG := so_far.kept name hname
  have split := recursionSplit_withTail mentions declaredG
  have names := nonterminals_withTail alts declaredG
  have fresh : (G.recursionTail name).1 ∉ G.nonterminals := synthesize_notMem_nonterminals
  have made_up : (G.recursionTail name).1 ∉ g.nonterminals := fun h => fresh (so_far.kept _ h)
  refine so_far.step proper whole expanded (core_singleton_of_notMem made_up) ?_ ?_ names ?_ ?_
  · exact fun alt halt => (split.owner_alts alt).1 halt
  · intro n hn other
    have ht : n ≠ (G.recursionTail name).1 := fun same => fresh (same ▸ hn)
    rw [split.same n other ht, alternatives_setRule_of_ne other]
  · intro n mentioned
    rw [names]
    rcases split.mentions mentioned with same | mentioned
    · rw [Symbol.nonterminal.inj same]
      exact List.mem_append_right _ List.mem_cons_self
    · refine List.mem_append_left _ ?_
      rcases mentioned.of_setRule with mentioned | ⟨alt, halt, hs⟩
      · exact so_far.declared n mentioned
      · exact so_far.declared n (mentions alt halt _ hs)
  · intro n hn alt halt
    obtain rfl : n = (G.recursionTail name).1 := by
      have listed := mem_nonterminals_of_mem_alternatives halt
      rw [names, List.mem_append] at listed
      exact List.mem_singleton.1 (listed.resolve_left hn)
    rcases (split.tail_alts alt).1 halt with rfl | ⟨body, hbody, rfl⟩
    · exact Or.inl rfl
    · obtain ⟨-, recursive⟩ := mem_repetitions.1 hbody
      refine Or.inr ⟨body, rfl, ?_, G.nonterminals, [], names, ?_⟩
      · -- a repetition of nothing but tails would be a cycle of the given grammar
        intro hollow
        have cycle := so_far.traced_expanded whole expanded _ recursive
        rw [core_cons_of_mem hname, hollow] at cycle
        exact proper.acyclic name cycle
      · intro other ho
        exact so_far.declared other (mentions _ recursive _ (List.mem_cons_of_mem _ ho))

include so_far proper whole expanded in
theorem Ranked.splitRecursion (split : (G.splitRecursion name alts).outcome = .ok G') :
    Ranked g G' (earlier ++ [name]) := by
  have mentions := mentions_of_mem_expanded expanded
  obtain ⟨-, ⟨-, rfl⟩ | ⟨-, rfl⟩⟩ := splitRecursion_cases split
  · exact so_far.dropLoops proper whole expanded mentions
  · exact so_far.withTail proper whole expanded mentions

end Step

/-! ## Ranks -/

/-- Originals are ranked by how many are declared after them, and tails above all of them in the
order of their making. -/
def rank (g G : Grammar) (name : String) : Nat :=
  if name ∈ g.nonterminals then g.nonterminals.length - g.nonterminals.idxOf name
  else g.nonterminals.length + 1 + G.nonterminals.idxOf name

/-- Where no original can be left out, what can be left out holds no original. -/
theorem core_eq_nil_of_isNullable (solid : ∀ name ∈ g.nonterminals, name ∉ G.nullable)
    {s : List Symbol} (null : Alternative.isNullable G.nullable s = true) : g.core s = [] := by
  refine List.filter_eq_nil_iff.2 fun a ha original => ?_
  have left_out := List.all_eq_true.1 null a ha
  cases a with
  | terminal kind => cases left_out
  | nonterminal n => exact solid n (of_decide_eq_true original) (of_decide_eq_true left_out)

/-- Along a chain of leaders the rank goes down, when no original can be left out. -/
theorem Ranked.rank_lt (ranked : Ranked g G g.nonterminals)
    (solid : ∀ name ∈ g.nonterminals, name ∉ G.nullable) (lead : G.Leads name other) :
    rank g G other < rank g G name := by
  obtain ⟨alt, halt, leads⟩ := lead
  by_cases hname : name ∈ g.nonterminals
  · obtain ⟨before, after, split⟩ := List.append_of_mem hname
    obtain ⟨a, rest, rfl, listed⟩ := ranked.ascending before name after split hname alt halt
    cases a with
    | terminal kind => cases leads
    | nonterminal first =>
      have later := listed first rfl
      have hfirst : first ∈ g.nonterminals :=
        split ▸ List.mem_append_right _ (List.mem_cons_of_mem _ later)
      obtain rfl : other = first := by
        rcases Alternative.mem_leaders_cons.1 leads with same | ⟨null, -⟩
        · exact same
        · exact absurd null (solid first hfirst)
      have inside := List.idxOf_lt_length_of_mem hfirst
      have further := idxOf_lt_of_mem_after (split ▸ g.nodup_nonterminals) later
      rw [← split] at further
      rw [rank, rank, if_pos hname, if_pos hfirst]
      omega
  · rcases ranked.tails name hname alt halt with
      rfl | ⟨body, rfl, full, before, after, split, older⟩
    · cases leads
    · have inside : other ∈ Alternative.leaders G.nullable body := by
        refine (Alternative.mem_leaders_append.1 leads).resolve_right fun ⟨null, _⟩ => full ?_
        exact core_eq_nil_of_isNullable solid null
      have ho := older other (Alternative.mem_of_mem_leaders inside)
      have further := idxOf_lt_of_mem_before (split ▸ G.nodup_nonterminals) ho
      rw [← split] at further
      unfold rank
      rw [if_neg hname]
      split <;> omega

theorem Ranked.not_leads_self (ranked : Ranked g G g.nonterminals)
    (solid : ∀ name ∈ g.nonterminals, name ∉ G.nullable) (name : String) :
    ¬ Relation.TransGen G.Leads name name := by
  intro loop
  have falls : ∀ {a b : String}, Relation.TransGen G.Leads a b → rank g G b < rank g G a := by
    intro a b chain
    induction chain with
    | single lead => exact ranked.rank_lt solid lead
    | tail _ lead ih => exact (ranked.rank_lt solid lead).trans ih
  exact Nat.lt_irrefl _ (falls loop)

/-! ## The whole pass -/

theorem Proper.ranked_of_eliminateBelow (proper : g.Proper)
    (returned : (g.eliminateBelow ceiling).outcome = .ok G) : Ranked g G g.nonterminals := by
  obtain ⟨last, ranked, rfl⟩ := eliminateBelow_induction (P := Ranked g) proper.ranked_thaw
    (fun whole so_far expanded split => so_far.splitRecursion proper whole expanded split) returned
  exact ranked.freeze

/-- A conservative change makes nothing that was declared nullable. -/
theorem Conservative.mem_nullable (h : g.Conservative G) (declared : name ∈ g.nonterminals)
    (null : name ∈ G.nullable) : name ∈ g.nullable := by
  have empty : [] ∈ G.language name := derives_nil_of_mem_nullable null
  rw [h.language name declared, mem_language] at empty
  exact Lookahead.isNullable_nonterminal.1 (isNullable_iff_derives.2 empty)

/-- Originals still derive no empty word. -/
theorem Proper.notMem_nullable (proper : g.Proper)
    (returned : (g.eliminateBelow ceiling).outcome = .ok G) (hname : name ∈ g.nonterminals) :
    name ∉ G.nullable := by
  intro null
  have before := (eliminateBelow_conservative returned).mem_nullable hname null
  exact proper.nonempty name (derives_nil_of_mem_nullable before)

/-- The pass ends, under every ceiling above the number of nonterminals. -/
theorem Proper.eliminateBelow_ends (proper : g.Proper) (valid : g.validate = .ok ())
    (room : g.nonterminals.length < ceiling) : (g.eliminateBelow ceiling).Ends := by
  refine Grammar.eliminateBelow_ends (P := Ranked g) valid proper.ranked_thaw ?_ ?_
  · exact fun whole so_far expanded split => so_far.splitRecursion proper whole expanded split
  · intro G earlier later name whole so_far
    refine exists_expandedAlternatives fun alt halt acc => ?_
    have head := so_far.headIn proper whole halt
    exact exists_expand so_far.ascending (List.nil_append _).symm head room acc

/-- The classical elimination theorem. Take a valid grammar in which no nonterminal derives the
empty word or, in one or more steps, itself. With a nesting ceiling above the number of
nonterminals, every expansion ends: the pass returns a grammar or finds an unfixable nonterminal.
And a grammar that it returns has no left recursion, be it direct, through others, or behind what
can be left out. -/
theorem eliminateBelow_recursionFree (valid : g.validate = .ok ())
    (nonempty : ∀ name, ¬ g.Derives [.nonterminal name] [])
    (acyclic : ∀ name, ¬ Relation.TransGen g.Rewrites [.nonterminal name] [.nonterminal name]) :
    (∀ ceiling, g.nonterminals.length < ceiling →
      (∃ g', (g.eliminateBelow ceiling).outcome = .ok g') ∨
        ∃ name, (g.eliminateBelow ceiling).outcome = .error (.unfixable name)) ∧
      ∀ ceiling g', (g.eliminateBelow ceiling).outcome = .ok g' →
        g'.leftRecursive = [] ∧ ∀ name rest,
          ¬ Relation.TransGen g'.Rewrites [.nonterminal name] (.nonterminal name :: rest) := by
  have proper : g.Proper := ⟨fun _ => declared_of_validate valid, nonempty, acyclic⟩
  refine ⟨fun ceiling room => proper.eliminateBelow_ends valid room, ?_⟩
  intro ceiling g' returned
  have straight := (proper.ranked_of_eliminateBelow returned).not_leads_self
    fun name => proper.notMem_nullable returned
  refine ⟨?_, fun name rest loop => straight name (leads_of_derives loop)⟩
  refine List.eq_nil_iff_forall_not_mem.2 fun name found => ?_
  exact straight name (mem_leftRecursive_iff.1 found)

section Weight

variable {weight : Symbol → Nat} {s t : List Symbol}

/-- Weights under which every alternative is heavier than its nonterminal. -/
def Gains (g : Grammar) (weight : Symbol → Nat) : Prop :=
  ∀ p ∈ g.productions, weight (.nonterminal p.1) < (p.2.map weight).sum

instance : Decidable (g.Gains weight) :=
  inferInstanceAs (Decidable (∀ p ∈ g.productions, _))

theorem Gains.rewrites (gains : g.Gains weight) (step : g.Rewrites s t) :
    (s.map weight).sum < (t.map weight).sum := by
  obtain @⟨before, after, owner, alt, halt⟩ := step
  have heavier : weight (.nonterminal owner) < (alt.map weight).sum :=
    gains (owner, alt) (mem_productions.2 halt)
  simp only [List.map_append, List.map_cons, List.sum_append, List.sum_cons]
  omega

/-- Such weights show that a grammar has no cycles. -/
theorem Gains.transGen (gains : g.Gains weight) (h : Relation.TransGen g.Rewrites s t) :
    (s.map weight).sum < (t.map weight).sum := by
  induction h with
  | single step => exact gains.rewrites step
  | tail _ step ih => exact ih.trans (gains.rewrites step)

end Weight

/-- Two nonterminals that begin with each other; one of them also begins with itself. -/
def chained : Grammar :=
  assemble (some "a")
    [("a", [[.nonterminal "a", .terminal .comma], [.nonterminal "b"]]),
     ("b", [[.nonterminal "a", .terminal .semicolon], [.terminal .integer]])] []

def chainedWeight : Symbol → Nat
  | .terminal _ => 3
  | .nonterminal name => if name = "a" then 1 else 2

/-- `chained` without left recursion: the first tail stands at the front of the second. -/
def chainedWithTails : Grammar :=
  { assemble (some "a")
      [("a", [[.nonterminal "b", .nonterminal "__lr1"]]),
       ("b", [[.terminal .integer, .nonterminal "__lr2"]]),
       ("__lr1", [[.terminal .comma, .nonterminal "__lr1"], []]),
       ("__lr2", [[.nonterminal "__lr1", .terminal .semicolon, .nonterminal "__lr2"], []])]
      [("__lr1", ⟨.leftRecursion, "a"⟩), ("__lr2", ⟨.leftRecursion, "b"⟩)] with counter := 2 }

theorem eliminateBelow_recursionFree_chained :
    chained.validate = .ok () ∧ (∀ name, ¬ chained.Derives [.nonterminal name] []) ∧
      (∀ name, ¬ Relation.TransGen chained.Rewrites [.nonterminal name] [.nonterminal name]) ∧
      chained.leftRecursive = ["a", "b"] ∧
      chained.eliminateLeftRecursion.outcome = .ok chainedWithTails ∧
      chainedWithTails.leftRecursive = [] := by
  have valid : chained.validate = .ok () := by rfl
  have gains : chained.Gains chainedWeight := by decide
  have acyclic : ∀ name,
      ¬ Relation.TransGen chained.Rewrites [.nonterminal name] [.nonterminal name] :=
    fun name cycle => Nat.lt_irrefl _ (gains.transGen cycle)
  have nonempty : ∀ name, ¬ chained.Derives [.nonterminal name] [] := by
    intro name derived
    rcases Relation.reflTransGen_iff_eq_or_transGen.1 derived with same | steps
    · cases same
    · exact absurd (gains.transGen steps) (Nat.not_lt_zero _)
  have returned : (chained.eliminateBelow expansionCeiling).outcome = .ok chainedWithTails := by rfl
  have free := (eliminateBelow_recursionFree valid nonempty acyclic).2 _ _ returned
  exact ⟨valid, nonempty, acyclic, by decide +kernel, returned, free.1⟩

end Grammar

end TopDown
