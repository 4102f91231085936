import TopDown.Proofs.Elimination
import TopDown.Transform.Factoring

/-
  Joining alternatives with a common beginning keeps every language.

  While the alternatives of one nonterminal are joined, its old rule stays in the grammar and the
  new one is collected beside it. The proofs follow the grammar as it would be if the work stopped
  here: `Joined.pending`, with the collected alternatives and those still to do as the rule. One
  joined group is one change of that grammar (`PrefixSplit`), and it is judged like a split
  recursion: the tail means the words that complete any word of the common beginning.
-/

namespace TopDown

namespace Alternative

theorem common_prefix_left (a b : Alternative) : common a b <+: a := by
  fun_induction common a b with
  | case1 as x bs ih => exact List.cons_prefix_cons.2 ⟨rfl, ih⟩
  | case2 => exact List.nil_prefix
  | case3 => exact List.nil_prefix

theorem common_prefix_right (a b : Alternative) : common a b <+: b := by
  fun_induction common a b with
  | case1 as x bs ih => exact List.cons_prefix_cons.2 ⟨rfl, ih⟩
  | case2 => exact List.nil_prefix
  | case3 => exact List.nil_prefix

theorem head?_common {a b : Alternative} (h : b.head? = a.head?) :
    (common a b).head? = a.head? := by
  cases a with
  | nil => rfl
  | cons x as =>
    obtain ⟨bs, rfl⟩ := List.head?_eq_some_iff.1 h
    simp [common]

/-- Alternatives that begin alike have their first symbol in common. -/
theorem head?_foldl_common {group : List Alternative} {alt : Alternative}
    (h : ∀ other ∈ group, other.head? = alt.head?) :
    (group.foldl common alt).head? = alt.head? := by
  induction group generalizing alt with
  | nil => rfl
  | cons next rest ih =>
    have here := head?_common (h next List.mem_cons_self)
    rw [List.foldl_cons, ih, here]
    intro other hother
    rw [here]
    exact h other (List.mem_cons_of_mem next hother)

/-- The common beginning of a group is one of every member. -/
theorem foldl_common_prefix (group : List Alternative) (alt : Alternative) :
    ∀ member ∈ alt :: group, group.foldl common alt <+: member := by
  induction group generalizing alt with
  | nil =>
    intro member hmem
    rw [List.mem_singleton.1 hmem]
    exact List.prefix_refl _
  | cons next rest ih =>
    rw [List.foldl_cons]
    intro member hmem
    have whole := ih (common alt next)
    rcases List.mem_cons.1 hmem with rfl | hmem
    · exact (whole _ List.mem_cons_self).trans (common_prefix_left _ _)
    · rcases List.mem_cons.1 hmem with rfl | hmem
      · exact (whole _ List.mem_cons_self).trans (common_prefix_right _ _)
      · exact whole _ (List.mem_cons_of_mem _ hmem)

end Alternative

namespace Grammar

variable {g g₁ g₂ : Grammar} {owner tail name : String} {common : Alternative}
  {remainders : List Alternative}

/-! ## One group -/

/-- `g₂` is `g₁` with alternatives of `owner` that begin with `common` joined, their remainders
moved into the tail. -/
structure PrefixSplit (g₁ g₂ : Grammar) (owner tail : String) (common : Alternative)
    (remainders : List Alternative) : Prop where
  remainder_mem : ∀ r ∈ remainders, common ++ r ∈ g₁.alternatives owner
  cover : ∀ alt ∈ g₁.alternatives owner,
    alt ∈ g₂.alternatives owner ∨ ∃ r ∈ remainders, alt = common ++ r
  joined_mem : common ++ [.nonterminal tail] ∈ g₂.alternatives owner
  owner_alts : ∀ alt ∈ g₂.alternatives owner,
    alt ∈ g₁.alternatives owner ∨ alt = common ++ [.nonterminal tail]
  tail_alts : ∀ alt, alt ∈ g₂.alternatives tail ↔ alt ∈ remainders
  same : ∀ n, n ≠ owner → n ≠ tail → g₂.alternatives n = g₁.alternatives n
  nonempty : remainders ≠ []
  undeclared : tail ∉ g₁.nonterminals
  unmentioned : ¬ g₁.Mentions (.nonterminal tail)

namespace PrefixSplit

variable (split : PrefixSplit g₁ g₂ owner tail common remainders)

include split

/-- The common beginning stands in an old alternative. -/
theorem exists_common : ∃ alt ∈ g₁.alternatives owner, ∀ a ∈ common, a ∈ alt := by
  obtain ⟨r, hr⟩ := List.exists_mem_of_ne_nil remainders split.nonempty
  exact ⟨common ++ r, split.remainder_mem r hr, fun a ha => List.mem_append_left r ha⟩

/-- The old rules hold in the new languages. -/
theorem forward : g₁.Closed g₂.language := by
  intro n alt halt
  by_cases hn : n = owner
  · subst hn
    rcases split.cover alt halt with halt | ⟨r, hr, rfl⟩
    · exact g₂.language_closed n alt halt
    · refine le_trans ?_ (g₂.language_closed n _ split.joined_mem)
      rw [Alternative.language_append, Alternative.language_append, Alternative.language_singleton]
      exact mul_le_mul' le_rfl (g₂.language_closed tail r ((split.tail_alts r).2 hr))
  · have ht : n ≠ tail := by
      rintro rfl
      exact split.undeclared (mem_nonterminals_of_mem_alternatives halt)
    rw [← split.same n hn ht] at halt
    exact g₂.language_closed n alt halt

/-- The new rules hold in the old languages. -/
theorem backward :
    g₂.Closed (g₁.tailMeaning tail owner (Alternative.language g₁.language common)) := by
  intro n alt halt
  rw [language_le_iff]
  intro w hw
  by_cases ht : n = tail
  · subst ht
    rw [mem_tailMeaning_self]
    intro u hu
    have hr := (split.tail_alts alt).1 halt
    have hmem := split.remainder_mem alt hr
    rw [language_tailMeaning split.unmentioned hmem fun a ha => List.mem_append_right _ ha] at hw
    refine mem_language_of_alternative hmem ?_
    rw [Alternative.language_append]
    exact Language.append_mem_mul hu hw
  · rw [tailMeaning_of_ne ht]
    by_cases hn : n = owner
    · subst hn
      rcases split.owner_alts alt halt with halt | rfl
      · rw [language_tailMeaning split.unmentioned halt fun _ h => h] at hw
        exact mem_language_of_alternative halt hw
      · obtain ⟨whole, hwhole, hcommon⟩ := split.exists_common
        rw [Alternative.language_append, Alternative.language_singleton,
          language_tailMeaning split.unmentioned hwhole hcommon] at hw
        obtain ⟨x, hx, y, hy, rfl⟩ := Language.mem_mul.1 hw
        exact mem_tailMeaning_self.1 hy x hx
    · rw [split.same n hn ht] at halt
      rw [language_tailMeaning split.unmentioned halt fun _ h => h] at hw
      exact mem_language_of_alternative halt hw

/-- The tail is the only symbol that was not there before. -/
theorem mentions {s : Symbol} (h : g₂.Mentions s) : s = .nonterminal tail ∨ g₁.Mentions s := by
  obtain ⟨n, alt, halt, hs⟩ := h
  by_cases ht : n = tail
  · subst ht
    have hr := (split.tail_alts alt).1 halt
    exact Or.inr ⟨owner, _, split.remainder_mem alt hr, List.mem_append_right _ hs⟩
  · by_cases hn : n = owner
    · subst hn
      rcases split.owner_alts alt halt with halt | rfl
      · exact Or.inr ⟨n, alt, halt, hs⟩
      · obtain ⟨whole, hwhole, hcommon⟩ := split.exists_common
        rcases List.mem_append.1 hs with hs | hs
        · exact Or.inr ⟨n, whole, hwhole, hcommon s hs⟩
        · exact Or.inl (List.mem_singleton.1 hs)
    · rw [split.same n hn ht] at halt
      exact Or.inr ⟨n, alt, halt, hs⟩

theorem conservative (start : g₂.start = g₁.start)
    (declared : ∀ n ∈ g₁.nonterminals, n ∈ g₂.nonterminals) : g₁.Conservative g₂ := by
  refine Conservative.of_closed start declared ?_ split.forward split.backward ?_
  · exact fun kind h => (split.mentions h).resolve_left fun same => by cases same
  · intro n hn
    refine tailMeaning_of_ne ?_
    rintro rfl
    exact split.undeclared hn

end PrefixSplit

/-! ## All groups of a nonterminal -/

namespace Joined

/-- The grammar with what is collected and what is still to do as the rule of the owner. -/
def pending (acc : Joined) (owner : String) (todo : List Alternative) : Grammar :=
  acc.grammar.setRule owner (acc.alts ++ todo)

/-- The name of the next tail. -/
abbrev nextTail (acc : Joined) (owner : String) : String :=
  (acc.grammar.factorTail owner).1

/-- Joins an alternative with others that begin like it. -/
def join (acc : Joined) (owner : String) (alt : Alternative) (group : List Alternative) : Joined :=
  let common := group.foldl Alternative.common alt
  ⟨(acc.grammar.factorTail owner).2.setRule (acc.nextTail owner)
      (Alternative.distinct ((alt :: group).map (·.drop common.length))),
    acc.alts ++ [common ++ [.nonterminal (acc.nextTail owner)]], acc.tails ++ [acc.nextTail owner]⟩

section Join

variable {acc : Joined} {alt : Alternative} {group : List Alternative}

theorem nextTail_notMem : acc.nextTail owner ∉ acc.grammar.nonterminals :=
  synthesize_notMem_nonterminals

theorem nonterminals_join : (acc.join owner alt group).grammar.nonterminals
    = acc.grammar.nonterminals ++ [acc.nextTail owner] := by
  have made : (acc.grammar.factorTail owner).2.nonterminals
      = acc.grammar.nonterminals ++ [acc.nextTail owner] := nonterminals_synthesize
  rw [join, nonterminals_setRule, made]
  rw [made]
  exact List.mem_append_right _ List.mem_cons_self

theorem alternatives_join_of_ne (h : name ≠ acc.nextTail owner) :
    (acc.join owner alt group).grammar.alternatives name = acc.grammar.alternatives name := by
  rw [join, alternatives_setRule_of_ne h]
  exact alternatives_synthesize

theorem alternatives_join_tail :
    (acc.join owner alt group).grammar.alternatives (acc.nextTail owner)
      = Alternative.distinct
          ((alt :: group).map (·.drop (group.foldl Alternative.common alt).length)) := by
  rw [join, alternatives_setRule_self]

end Join

/-- Nothing in the alternatives at hand is unknown to the grammar, so that a made-up name cannot
clash with it, and none of those to do begins like one that is done. -/
structure Known (acc : Joined) (owner : String) (todo : List Alternative) : Prop where
  owner_mem : owner ∈ acc.grammar.nonterminals
  used : ∀ alt ∈ acc.alts ++ todo, ∀ n, .nonterminal n ∈ alt → n ∈ acc.grammar.usedNames
  nodup : todo.Nodup
  apart : ∀ alt ∈ acc.alts, ∀ other ∈ todo, other.head? ≠ alt.head?

end Joined

/-- Members of `rest` that begin like `alt`, and those that do not. -/
def alike (alt : Alternative) (rest : List Alternative) : List Alternative :=
  rest.filter fun other => other.head? = alt.head?

def unlike (alt : Alternative) (rest : List Alternative) : List Alternative :=
  rest.filter fun other => other.head? ≠ alt.head?

theorem alike_append_unlike_perm (alt : Alternative) (rest : List Alternative) :
    (alike alt rest ++ unlike alt rest).Perm rest := by
  have parts := List.filter_append_perm (fun other => decide (other.head? = alt.head?)) rest
  simpa only [alike, unlike, ne_eq, decide_not] using parts

theorem mem_alike_or_unlike {alt other : Alternative} {rest : List Alternative} :
    other ∈ rest ↔ other ∈ alike alt rest ∨ other ∈ unlike alt rest := by
  simp only [alike, unlike, List.mem_filter, decide_eq_true_eq, ← and_or_left]
  exact ⟨fun h => ⟨h, em _⟩, And.left⟩

/-- What keeping an alternative and joining a group both keep holds at the end. An empty
alternative, or one like no other, is kept; any other one is joined. -/
theorem joinAlternatives_induction {P : Joined → List Alternative → Prop}
    (keep : ∀ acc alt rest, alt = [] ∨ alike alt rest = [] → P acc (alt :: rest) →
      P { acc with alts := acc.alts ++ [alt] } rest)
    (join : ∀ acc alt rest, alt ≠ [] → alike alt rest ≠ [] → P acc (alt :: rest) →
      P (acc.join owner alt (alike alt rest)) (unlike alt rest))
    {alts : List Alternative} {acc acc' : Joined} (start : P acc alts)
    (h : (joinAlternatives owner alts acc).outcome = .ok acc') : P acc' [] := by
  match alts with
  | [] =>
    unfold joinAlternatives at h
    cases h
    exact start
  | alt :: rest =>
    rw [joinAlternatives] at h
    split at h
    · next alone => exact joinAlternatives_induction keep join (keep acc alt rest alone start) h
    · next grouped =>
      obtain ⟨-, -, h⟩ := Traced.outcome_bind_eq_ok.1 h
      obtain ⟨nonempty, several⟩ := not_or.1 grouped
      exact joinAlternatives_induction keep join (join acc alt rest nonempty several start) h
termination_by alts.length
decreasing_by
  · exact Nat.lt_succ_of_le (List.length_filter_le _ _)
  · exact Nat.lt_succ_self _

section Join

variable {acc : Joined} {alt : Alternative} {rest : List Alternative}

theorem Joined.Known.keep (known : acc.Known owner (alt :: rest))
    (alone : alt = [] ∨ alike alt rest = []) :
    Joined.Known { acc with alts := acc.alts ++ [alt] } owner rest where
  owner_mem := known.owner_mem
  used := by simpa using known.used
  nodup := (List.nodup_cons.1 known.nodup).2
  apart := by
    intro a ha other hother same
    rcases List.mem_append.1 ha with ha | ha
    · exact known.apart a ha other (List.mem_cons_of_mem alt hother) same
    · rw [List.mem_singleton.1 ha] at same
      rcases alone with rfl | unlike
      · -- there is one empty alternative at most
        rw [List.head?_nil, List.head?_eq_none_iff] at same
        exact (List.nodup_cons.1 known.nodup).1 (same ▸ hother)
      · have grouped : other ∈ alike alt rest :=
          List.mem_filter.2 ⟨hother, decide_eq_true same⟩
        rw [unlike] at grouped
        cases grouped

variable (known : acc.Known owner (alt :: rest)) (nonempty : alt ≠ [])

/-- What the alternative and those like it have in common at the beginning. -/
abbrev shared (alt : Alternative) (rest : List Alternative) : Alternative :=
  (alike alt rest).foldl Alternative.common alt

/-- What is left of them after it. -/
abbrev leftOver (alt : Alternative) (rest : List Alternative) : List Alternative :=
  (alt :: alike alt rest).map (·.drop (shared alt rest).length)

theorem mem_leftOver {r : Alternative} : r ∈ leftOver alt rest ↔
    ∃ member ∈ alt :: alike alt rest, member = shared alt rest ++ r := by
  rw [List.mem_map]
  refine exists_congr fun member => and_congr_right fun hmem => ?_
  have front := Alternative.foldl_common_prefix (alike alt rest) alt member hmem
  have whole := List.prefix_iff_eq_append.1 front
  constructor
  · rintro rfl
    exact whole.symm
  · intro h
    rw [h, List.drop_left]

include nonempty in
theorem head?_shared (r : Alternative) : (shared alt rest ++ r).head? = alt.head? := by
  have front : (shared alt rest).head? = alt.head? := by
    refine Alternative.head?_foldl_common ?_
    intro other hother
    exact of_decide_eq_true (List.mem_filter.1 hother).2
  obtain ⟨a, tail, rfl⟩ := List.exists_cons_of_ne_nil nonempty
  rw [List.head?_append, front, List.head?_cons, Option.some_or]

include nonempty in
theorem shared_ne_nil : shared alt rest ≠ [] := by
  intro empty
  have head : (shared alt rest ++ []).head? = alt.head? := head?_shared nonempty []
  rw [List.append_nil, empty, List.head?_nil, eq_comm, List.head?_eq_none_iff] at head
  exact nonempty head

include known in
theorem Joined.Known.tail_ne : acc.nextTail owner ≠ owner :=
  fun h => nextTail_notMem (h ▸ known.owner_mem)

include known in
/-- Joining one group is a split of the pending grammar. -/
theorem Joined.Known.prefixSplit :
    PrefixSplit (acc.pending owner (alt :: rest))
      ((acc.join owner alt (alike alt rest)).pending owner (unlike alt rest)) owner
      (acc.nextTail owner) (shared alt rest) (leftOver alt rest) where
  remainder_mem r hr := by
    obtain ⟨member, hmem, whole⟩ := mem_leftOver.1 hr
    rw [Joined.pending, alternatives_setRule_self, ← whole]
    refine List.mem_append_right _ ?_
    rcases List.mem_cons.1 hmem with rfl | h
    · exact List.mem_cons_self
    · exact List.mem_cons_of_mem _ (mem_alike_or_unlike.2 (Or.inl h))
  cover a ha := by
    rw [Joined.pending, alternatives_setRule_self] at ha ⊢
    have joined : a ∈ alt :: alike alt rest →
        ∃ r ∈ leftOver alt rest, a = shared alt rest ++ r := by
      intro hmem
      obtain ⟨r, rfl⟩ := Alternative.foldl_common_prefix (alike alt rest) alt a hmem
      exact ⟨r, mem_leftOver.2 ⟨_, hmem, rfl⟩, rfl⟩
    rcases List.mem_append.1 ha with ha | ha
    · exact Or.inl (List.mem_append_left _ (List.mem_append_left _ ha))
    · rcases List.mem_cons.1 ha with rfl | ha
      · exact Or.inr (joined List.mem_cons_self)
      · rcases mem_alike_or_unlike.1 ha with ha | ha
        · exact Or.inr (joined (List.mem_cons_of_mem _ ha))
        · exact Or.inl (List.mem_append_right _ ha)
  joined_mem := by
    rw [Joined.pending, alternatives_setRule_self]
    exact List.mem_append_left _ (List.mem_append_right _ List.mem_cons_self)
  owner_alts a ha := by
    rw [Joined.pending, alternatives_setRule_self] at ha ⊢
    rcases List.mem_append.1 ha with ha | ha
    · rcases List.mem_append.1 ha with ha | ha
      · exact Or.inl (List.mem_append_left _ ha)
      · exact Or.inr (List.mem_singleton.1 ha)
    · refine Or.inl (List.mem_append_right _ (List.mem_cons_of_mem _ ?_))
      exact mem_alike_or_unlike.2 (Or.inr ha)
  tail_alts a := by
    rw [Joined.pending, alternatives_setRule_of_ne known.tail_ne, Joined.join,
      alternatives_setRule_self, Alternative.mem_distinct]
  same n hn ht := by
    rw [Joined.pending, Joined.pending, alternatives_setRule_of_ne hn,
      alternatives_setRule_of_ne hn, alternatives_join_of_ne ht]
  nonempty := by simp
  undeclared h := by
    rcases mem_nonterminals_setRule.1 h with h | h
    · exact known.tail_ne h
    · exact synthesize_notMem_nonterminals h
  unmentioned h := by
    rcases h.of_setRule with h | ⟨a, ha, hs⟩
    · exact synthesize_not_mentions h
    · exact synthesize_notMem (known.used a ha _ hs)

include known in
theorem Joined.Known.conservative_join :
    (acc.pending owner (alt :: rest)).Conservative
      ((acc.join owner alt (alike alt rest)).pending owner (unlike alt rest)) := by
  refine known.prefixSplit.conservative rfl ?_
  intro n hn
  refine mem_nonterminals_setRule.2 ((mem_nonterminals_setRule.1 hn).imp_right fun hn => ?_)
  rw [nonterminals_join]
  exact List.mem_append_left _ hn

/-- Names in use stay in use. -/
theorem Joined.usedNames_join {group : List Alternative} {n : String}
    (h : n ∈ acc.grammar.usedNames) : n ∈ (acc.join owner alt group).grammar.usedNames := by
  rw [mem_usedNames] at h ⊢
  rcases h with h | ⟨user, a, ha, hs⟩
  · rw [nonterminals_join]
    exact Or.inl (List.mem_append_left _ h)
  · refine Or.inr ⟨user, a, ?_, hs⟩
    have hne : user ≠ acc.nextTail owner := by
      rintro rfl
      exact nextTail_notMem (mem_nonterminals_of_mem_alternatives ha)
    rwa [alternatives_join_of_ne hne]

include known nonempty in
theorem Joined.Known.join :
    (acc.join owner alt (alike alt rest)).Known owner (unlike alt rest) where
  owner_mem := by
    rw [nonterminals_join]
    exact List.mem_append_left _ known.owner_mem
  used := by
    intro a ha n hn
    rcases List.mem_append.1 ha with ha | ha
    · rcases List.mem_append.1 ha with ha | ha
      · exact usedNames_join (known.used a (List.mem_append_left _ ha) n hn)
      · -- the new alternative: the common beginning and the tail, which is declared
        rw [List.mem_singleton.1 ha] at hn
        rcases List.mem_append.1 hn with hn | hn
        · have front := Alternative.foldl_common_prefix (alike alt rest) alt alt List.mem_cons_self
          refine usedNames_join (known.used alt ?_ n (front.subset hn))
          exact List.mem_append_right _ List.mem_cons_self
        · rw [List.mem_singleton, Symbol.nonterminal.injEq] at hn
          exact mem_usedNames.2 (Or.inl (mem_nonterminals_setRule.2 (Or.inl hn)))
    · refine usedNames_join (known.used a (List.mem_append_right _ ?_) n hn)
      exact List.mem_cons_of_mem _ (mem_alike_or_unlike.2 (Or.inr ha))
  nodup := (List.nodup_cons.1 known.nodup).2.filter _
  apart := by
    intro a ha other hother same
    obtain ⟨hother, differs⟩ := List.mem_filter.1 hother
    rw [decide_eq_true_eq] at differs
    rcases List.mem_append.1 ha with ha | ha
    · exact known.apart a ha other (List.mem_cons_of_mem alt hother) same
    · rw [List.mem_singleton.1 ha, head?_shared nonempty] at same
      exact differs same

include known nonempty in
/-- What is left in the rule of the owner, apart from the joined alternative, is none of those that
were joined. -/
theorem Joined.Known.ne_shared_append {a r : Alternative}
    (ha : a ∈ acc.alts ++ unlike alt rest) : a ≠ shared alt rest ++ r := by
  rintro rfl
  have same : (shared alt rest ++ r).head? = alt.head? := head?_shared nonempty r
  rcases List.mem_append.1 ha with ha | ha
  · exact known.apart _ ha alt List.mem_cons_self same.symm
  · exact of_decide_eq_true (List.mem_filter.1 ha).2 same

end Join

/-- What joining one group keeps is kept by joining all groups of a nonterminal. -/
theorem joinAlternatives_keeps {P : Grammar → Prop}
    (join : ∀ (acc : Joined) (alt : Alternative) (rest : List Alternative), alt ≠ [] →
      acc.Known owner (alt :: rest) → P (acc.pending owner (alt :: rest)) →
      P ((acc.join owner alt (alike alt rest)).pending owner (unlike alt rest)))
    {alts : List Alternative} {acc acc' : Joined} (known : acc.Known owner alts)
    (start : P (acc.pending owner alts))
    (h : (joinAlternatives owner alts acc).outcome = .ok acc') : P (acc'.pending owner []) := by
  let Q : Joined → List Alternative → Prop := fun next todo =>
    next.Known owner todo ∧ P (next.pending owner todo)
  have keepQ : ∀ next alt rest, alt = [] ∨ alike alt rest = [] → Q next (alt :: rest) →
      Q { next with alts := next.alts ++ [alt] } rest := by
    rintro next alt rest alone ⟨known, so_far⟩
    refine ⟨known.keep alone, ?_⟩
    have same : Joined.pending { next with alts := next.alts ++ [alt] } owner rest
        = next.pending owner (alt :: rest) := by simp [Joined.pending]
    rwa [same]
  have joinQ : ∀ next alt rest, alt ≠ [] → alike alt rest ≠ [] → Q next (alt :: rest) →
      Q (next.join owner alt (alike alt rest)) (unlike alt rest) := by
    rintro next alt rest nonempty - ⟨known, so_far⟩
    exact ⟨known.join nonempty, join next alt rest nonempty known so_far⟩
  exact (joinAlternatives_induction (P := Q) keepQ joinQ ⟨known, start⟩ h).2

end Grammar

end TopDown
