import TopDown.Proofs.Rules
import TopDown.Transform.Elimination

/-
  Splicing earlier nonterminals away from the front of alternatives keeps every language.

  `expand` is a depth-first search through the alternatives that splicing gives rise to, and it cuts
  every alternative it has met before. What carries over the cuts is that an alternative met during
  a search is settled when the search is over: it is done, or all that splicing makes of it has been
  met (`expand_advances`). A word of a settled alternative is then a word of one that is done, by
  induction on the length of its leftmost derivation: splicing away the leading nonterminal is the
  first step of it (`mem_of_unfolds_settled`).

  The nesting ceiling decides only whether a search ends: one that ends does so under every higher
  ceiling, with the same result (`expand_mono`).
-/

namespace TopDown

namespace Expansion

/-- The alternative is done, or all that splicing makes of it has been met. -/
def Settled (g : Grammar) (earlier : List String) (acc : Expansion) (alt : Alternative) : Prop :=
  alt ∈ acc.done ∨ ∃ lead rest, alt = .nonterminal lead :: rest ∧ lead ∈ earlier ∧
    ∀ sub ∈ Alternative.splice (g.alternatives lead) rest, sub ∈ acc.seen

/-- Nothing is forgotten, and what was met on the way is settled. -/
structure Advances (g : Grammar) (earlier : List String) (acc acc' : Expansion) : Prop where
  seen : ∀ alt ∈ acc.seen, alt ∈ acc'.seen
  done : ∀ alt ∈ acc.done, alt ∈ acc'.done
  settled : ∀ alt ∈ acc'.seen, alt ∉ acc.seen → acc'.Settled g earlier alt

variable {g : Grammar} {earlier : List String} {acc acc' acc'' : Expansion} {alt : Alternative}

theorem Advances.refl (acc : Expansion) : acc.Advances g earlier acc where
  seen _ h := h
  done _ h := h
  settled _ h hn := absurd h hn

theorem Settled.mono (h : acc.Settled g earlier alt) (adv : acc.Advances g earlier acc') :
    acc'.Settled g earlier alt := by
  rcases h with h | ⟨lead, rest, rfl, hlead, h⟩
  · exact Or.inl (adv.done alt h)
  · exact Or.inr ⟨lead, rest, rfl, hlead, fun sub hsub => adv.seen sub (h sub hsub)⟩

theorem Advances.trans (h₁ : acc.Advances g earlier acc') (h₂ : acc'.Advances g earlier acc'') :
    acc.Advances g earlier acc'' where
  seen alt h := h₂.seen alt (h₁.seen alt h)
  done alt h := h₂.done alt (h₁.done alt h)
  settled alt h hn := by
    by_cases hmid : alt ∈ acc'.seen
    · exact (h₁.settled alt hmid hn).mono h₂
    · exact h₂.settled alt h hmid

end Expansion

namespace Grammar

open Expansion

variable {g : Grammar} {earlier : List String} {ceiling : Nat} {acc acc' : Expansion}
  {alt : Alternative} {alts : List Alternative} {name : String}

/-- No earlier nonterminal stands at the front of the alternative. -/
def Unled (earlier : List String) (alt : Alternative) : Prop :=
  ∀ lead ∈ earlier, ∀ rest, alt ≠ .nonterminal lead :: rest

/-- What one call of `expand` does: nothing, one level of splicing, or a finished alternative. -/
theorem expand_cases (h : g.expand earlier (ceiling + 1) acc alt = some acc') :
    (alt ∈ acc.seen ∧ acc' = acc) ∨
    (alt ∉ acc.seen ∧ ∃ lead rest, alt = .nonterminal lead :: rest ∧ lead ∈ earlier ∧
      (Alternative.splice (g.alternatives lead) rest).foldlM (g.expand earlier ceiling)
        { acc with seen := alt :: acc.seen } = some acc') ∨
    (alt ∉ acc.seen ∧ Unled earlier alt ∧ acc' = ⟨alt :: acc.seen, alt :: acc.done⟩) := by
  unfold expand at h
  split at h
  · next hseen => exact Or.inl ⟨hseen, (Option.some.inj h).symm⟩
  · next hseen =>
    refine Or.inr ?_
    dsimp only at h
    split at h
    · next lead rest =>
      split at h
      · next hlead => exact Or.inl ⟨hseen, lead, rest, rfl, hlead, h⟩
      · next hlead =>
        refine Or.inr ⟨hseen, ?_, (Option.some.inj h).symm⟩
        intro other hother more same
        obtain ⟨same, -⟩ := List.cons.inj same
        exact hlead (Symbol.nonterminal.inj same ▸ hother)
    · next unled =>
      exact Or.inr ⟨hseen, fun lead _ rest => unled lead rest, (Option.some.inj h).symm⟩

/-- What every call keeps is kept by a row of calls. -/
theorem foldlM_expand_induction {P : Expansion → Prop}
    {f : Expansion → Alternative → Option Expansion}
    (step : ∀ acc acc', ∀ alt ∈ alts, P acc → f acc alt = some acc' → P acc')
    (start : P acc) (h : alts.foldlM f acc = some acc') : P acc' := by
  induction alts generalizing acc with
  | nil =>
    rw [List.foldlM_nil] at h
    exact Option.some.inj h ▸ start
  | cons alt rest ih =>
    rw [List.foldlM_cons] at h
    obtain ⟨mid, hmid, h⟩ := Option.bind_eq_some_iff.1 h
    refine ih (fun a a' b hb => step a a' b (List.mem_cons_of_mem alt hb)) ?_ h
    exact step acc mid alt List.mem_cons_self start hmid

theorem foldlM_expand_advances {f : Expansion → Alternative → Option Expansion}
    (step : ∀ acc acc' alt, f acc alt = some acc' → acc.Advances g earlier acc' ∧ alt ∈ acc'.seen)
    (h : alts.foldlM f acc = some acc') :
    acc.Advances g earlier acc' ∧ ∀ alt ∈ alts, alt ∈ acc'.seen := by
  induction alts generalizing acc with
  | nil =>
    rw [List.foldlM_nil] at h
    cases h
    exact ⟨.refl _, fun _ h => absurd h List.not_mem_nil⟩
  | cons alt rest ih =>
    rw [List.foldlM_cons] at h
    obtain ⟨mid, hmid, h⟩ := Option.bind_eq_some_iff.1 h
    obtain ⟨adv₁, mem⟩ := step acc mid alt hmid
    obtain ⟨adv₂, rest_mem⟩ := ih h
    refine ⟨adv₁.trans adv₂, ?_⟩
    intro a ha
    rcases List.mem_cons.1 ha with rfl | ha
    · exact adv₂.seen a mem
    · exact rest_mem a ha

/-- A finished search has met its alternative and settled everything it has met. -/
theorem expand_advances (h : g.expand earlier ceiling acc alt = some acc') :
    acc.Advances g earlier acc' ∧ alt ∈ acc'.seen := by
  induction ceiling generalizing acc acc' alt with
  | zero => cases h
  | succ ceiling ih =>
    rcases expand_cases h with
      ⟨hseen, rfl⟩ | ⟨hseen, lead, rest, rfl, hlead, hfold⟩ | ⟨hseen, -, rfl⟩
    · exact ⟨.refl acc', hseen⟩
    · obtain ⟨adv, subs⟩ := foldlM_expand_advances (fun _ _ _ h => ih h) hfold
      have here := adv.seen _ List.mem_cons_self
      refine ⟨⟨fun a ha => adv.seen a (List.mem_cons_of_mem _ ha), adv.done, ?_⟩, here⟩
      -- the alternative itself is settled only now that all its spliced forms have been met
      intro a ha hn
      by_cases hself : a = .nonterminal lead :: rest
      · exact Or.inr ⟨lead, rest, hself, hlead, subs⟩
      · exact adv.settled a ha fun hmem => (List.mem_cons.1 hmem).elim hself hn
    · refine ⟨⟨fun a ha => List.mem_cons_of_mem _ ha, fun a ha => List.mem_cons_of_mem _ ha, ?_⟩,
        List.mem_cons_self⟩
      intro a ha hn
      rcases List.mem_cons.1 ha with rfl | ha
      · exact Or.inl List.mem_cons_self
      · exact absurd ha hn

/-- What holds of an alternative and is kept by splicing holds of all that is done for it. -/
theorem expand_done_induction {P : Alternative → Prop}
    (spliced : ∀ lead ∈ earlier, ∀ rest, P (.nonterminal lead :: rest) →
      ∀ sub ∈ Alternative.splice (g.alternatives lead) rest, P sub)
    (halt : P alt) (hacc : ∀ a ∈ acc.done, P a)
    (h : g.expand earlier ceiling acc alt = some acc') : ∀ a ∈ acc'.done, P a := by
  induction ceiling generalizing acc acc' alt with
  | zero => cases h
  | succ ceiling ih =>
    rcases expand_cases h with ⟨-, rfl⟩ | ⟨-, lead, rest, rfl, hlead, hfold⟩ | ⟨-, -, rfl⟩
    · exact hacc
    · have subs := spliced lead hlead rest halt
      refine foldlM_expand_induction (P := fun acc => ∀ a ∈ acc.done, P a) ?_ ?_ hfold
      · exact fun a a' sub hsub ha hstep => ih (subs sub hsub) ha hstep
      · exact hacc
    · intro a ha
      rcases List.mem_cons.1 ha with rfl | ha
      · exact halt
      · exact hacc a ha

/-- What is done begins with no earlier nonterminal. -/
theorem expand_unled (hacc : ∀ a ∈ acc.done, Unled earlier a)
    (h : g.expand earlier ceiling acc alt = some acc') : ∀ a ∈ acc'.done, Unled earlier a := by
  induction ceiling generalizing acc acc' alt with
  | zero => cases h
  | succ ceiling ih =>
    rcases expand_cases h with ⟨-, rfl⟩ | ⟨-, lead, rest, rfl, hlead, hfold⟩ | ⟨-, unled, rfl⟩
    · exact hacc
    · refine foldlM_expand_induction (P := fun acc => ∀ a ∈ acc.done, Unled earlier a) ?_ ?_ hfold
      · exact fun a a' sub _ ha hstep => ih ha hstep
      · exact hacc
    · intro a ha
      rcases List.mem_cons.1 ha with rfl | ha
      · exact unled
      · exact hacc a ha

/-- What is done is done once: it has been met, and nothing is looked at again. -/
def Once (acc : Expansion) : Prop :=
  acc.done.Nodup ∧ ∀ a ∈ acc.done, a ∈ acc.seen

theorem expand_once (hacc : Once acc) (h : g.expand earlier ceiling acc alt = some acc') :
    Once acc' := by
  induction ceiling generalizing acc acc' alt with
  | zero => cases h
  | succ ceiling ih =>
    rcases expand_cases h with ⟨-, rfl⟩ | ⟨-, lead, rest, rfl, -, hfold⟩ | ⟨unmet, -, rfl⟩
    · exact hacc
    · refine foldlM_expand_induction (fun a a' sub _ ha hstep => ih ha hstep) ?_ hfold
      exact ⟨hacc.1, fun a ha => List.mem_cons_of_mem _ (hacc.2 a ha)⟩
    · have new : alt ∉ acc.done := fun ha => unmet (hacc.2 alt ha)
      refine ⟨List.nodup_cons.2 ⟨new, hacc.1⟩, fun a ha => ?_⟩
      rcases List.mem_cons.1 ha with rfl | ha
      · exact List.mem_cons_self
      · exact List.mem_cons_of_mem _ (hacc.2 a ha)

/-! ## Expansions that end -/

theorem exists_foldlM {f : Expansion → Alternative → Option Expansion}
    (each : ∀ alt ∈ alts, ∀ acc, ∃ acc', f acc alt = some acc') (acc : Expansion) :
    ∃ acc', alts.foldlM f acc = some acc' := by
  induction alts generalizing acc with
  | nil => exact ⟨acc, rfl⟩
  | cons alt rest ih =>
    obtain ⟨mid, hmid⟩ := each alt List.mem_cons_self acc
    obtain ⟨acc', hacc'⟩ := ih (fun a ha => each a (List.mem_cons_of_mem alt ha)) mid
    refine ⟨acc', ?_⟩
    rw [List.foldlM_cons, hmid]
    exact hacc'

/-- A call ends under a ceiling when what it splices ends below it. -/
theorem exists_expand_succ
    (each : ∀ lead rest, alt = .nonterminal lead :: rest → lead ∈ earlier →
      ∀ sub ∈ Alternative.splice (g.alternatives lead) rest, ∀ acc,
        ∃ acc', g.expand earlier ceiling acc sub = some acc') (acc : Expansion) :
    ∃ acc', g.expand earlier (ceiling + 1) acc alt = some acc' := by
  unfold expand
  split
  · exact ⟨acc, rfl⟩
  · dsimp only
    split
    · next lead rest _ =>
      split
      · next early => exact exists_foldlM (each lead rest rfl early) _
      · exact ⟨_, rfl⟩
    · exact ⟨_, rfl⟩

theorem foldlM_expand_mono {f f' : Expansion → Alternative → Option Expansion}
    (step : ∀ acc acc' alt, f acc alt = some acc' → f' acc alt = some acc')
    (h : alts.foldlM f acc = some acc') : alts.foldlM f' acc = some acc' := by
  induction alts generalizing acc with
  | nil => exact h
  | cons alt rest ih =>
    rw [List.foldlM_cons] at h ⊢
    obtain ⟨mid, hmid, h⟩ := Option.bind_eq_some_iff.1 h
    rw [step acc mid alt hmid]
    exact ih h

/-- A call that ends under a ceiling ends under every higher one, with the same result. -/
theorem expand_mono {depth : Nat} (le : depth ≤ ceiling)
    (h : g.expand earlier depth acc alt = some acc') :
    g.expand earlier ceiling acc alt = some acc' := by
  induction depth generalizing ceiling acc acc' alt with
  | zero => cases h
  | succ depth ih =>
    obtain ⟨ceiling, rfl⟩ := Nat.exists_eq_add_of_le' (show 1 ≤ ceiling by omega)
    unfold expand at h ⊢
    by_cases met : alt ∈ acc.seen
    · rw [if_pos met] at h ⊢
      exact h
    · rw [if_neg met] at h ⊢
      dsimp only at h ⊢
      split at h
      · next lead rest =>
        by_cases early : lead ∈ earlier
        · rw [if_pos early] at h ⊢
          exact foldlM_expand_mono (fun _ _ _ => ih (by omega)) h
        · rw [if_neg early] at h ⊢
          exact h
      · exact h

/-! ## All alternatives of a nonterminal -/

/-- The results are what is done when the last call is over. -/
theorem exists_expansion (h : g.expandedAlternatives ceiling earlier name = .ok alts) :
    ∃ expansion : Expansion,
      (g.alternatives name).foldlM (g.expand earlier ceiling) ⟨[], []⟩ = some expansion ∧
        alts = expansion.done.reverse := by
  unfold expandedAlternatives at h
  split at h
  · next expansion hfold =>
    cases h
    exact ⟨expansion, hfold, rfl⟩
  · cases h

theorem exists_expandedAlternatives
    (each : ∀ alt ∈ g.alternatives name, ∀ acc,
      ∃ acc', g.expand earlier ceiling acc alt = some acc') :
    ∃ alts, g.expandedAlternatives ceiling earlier name = .ok alts := by
  obtain ⟨expansion, hfold⟩ := exists_foldlM each ⟨[], []⟩
  exact ⟨expansion.done.reverse, by rw [expandedAlternatives, hfold]⟩

theorem expandedAlternatives_mono {depth : Nat} (le : depth ≤ ceiling)
    (h : g.expandedAlternatives depth earlier name = .ok alts) :
    g.expandedAlternatives ceiling earlier name = .ok alts := by
  obtain ⟨expansion, hfold, rfl⟩ := exists_expansion h
  rw [expandedAlternatives, foldlM_expand_mono (fun _ _ _ => expand_mono le) hfold]

/-- What every call of `expand` keeps of all that is done holds of the results. -/
theorem mem_expanded_induction {P : Alternative → Prop}
    (step : ∀ alt ∈ g.alternatives name, ∀ acc acc', (∀ a ∈ acc.done, P a) →
      g.expand earlier ceiling acc alt = some acc' → ∀ a ∈ acc'.done, P a)
    (h : g.expandedAlternatives ceiling earlier name = .ok alts) : ∀ alt ∈ alts, P alt := by
  obtain ⟨expansion, hfold, rfl⟩ := exists_expansion h
  have done : ∀ a ∈ expansion.done, P a := by
    refine foldlM_expand_induction (P := fun acc => ∀ a ∈ acc.done, P a) ?_
      (fun _ h => absurd h List.not_mem_nil) hfold
    exact fun a a' alt halt ha hstep => step alt halt a a' ha hstep
  exact fun alt halt => done alt (List.mem_reverse.1 halt)

/-- No result comes twice. -/
theorem nodup_expanded (h : g.expandedAlternatives ceiling earlier name = .ok alts) :
    alts.Nodup := by
  obtain ⟨expansion, hfold, rfl⟩ := exists_expansion h
  have once : Once expansion := by
    refine foldlM_expand_induction (fun a a' alt _ ha hstep => expand_once ha hstep) ?_ hfold
    exact ⟨List.nodup_nil, fun _ h => absurd h List.not_mem_nil⟩
  exact List.nodup_reverse.2 once.1

theorem expandedAlternatives_induction {P : Alternative → Prop}
    (spliced : ∀ lead ∈ earlier, ∀ rest, P (.nonterminal lead :: rest) →
      ∀ sub ∈ Alternative.splice (g.alternatives lead) rest, P sub)
    (start : ∀ alt ∈ g.alternatives name, P alt)
    (h : g.expandedAlternatives ceiling earlier name = .ok alts) : ∀ alt ∈ alts, P alt := by
  refine mem_expanded_induction ?_ h
  exact fun alt halt _ _ ha hstep => expand_done_induction spliced (start alt halt) ha hstep

theorem unled_of_mem_expanded (h : g.expandedAlternatives ceiling earlier name = .ok alts) :
    ∀ alt ∈ alts, Unled earlier alt :=
  mem_expanded_induction (fun _ _ _ _ ha hstep => expand_unled ha hstep) h

/-- The alternatives met while those of `name` are expanded: each of them is among the results, or
begins with an earlier nonterminal and has all its spliced forms among those met. -/
theorem expandedAlternatives_closure (h : g.expandedAlternatives ceiling earlier name = .ok alts) :
    ∃ seen : List Alternative, (∀ alt ∈ g.alternatives name, alt ∈ seen) ∧
      ∀ alt ∈ seen, alt ∈ alts ∨ ∃ lead rest, alt = .nonterminal lead :: rest ∧ lead ∈ earlier ∧
        ∀ sub ∈ Alternative.splice (g.alternatives lead) rest, sub ∈ seen := by
  obtain ⟨expansion, hfold, rfl⟩ := exists_expansion h
  obtain ⟨adv, subs⟩ := foldlM_expand_advances (fun _ _ _ h => expand_advances h) hfold
  refine ⟨expansion.seen, subs, ?_⟩
  intro alt halt
  rcases adv.settled alt halt (by simp) with hdone | hspliced
  · exact Or.inl (List.mem_reverse.2 hdone)
  · exact Or.inr hspliced

/-- Where no alternative begins with an earlier nonterminal, there is nothing to splice. -/
theorem mem_expanded_iff (h : g.expandedAlternatives ceiling earlier name = .ok alts)
    (unled : ∀ lead ∈ earlier, ∀ rest, .nonterminal lead :: rest ∉ g.alternatives name) :
    alt ∈ alts ↔ alt ∈ g.alternatives name := by
  constructor
  · refine expandedAlternatives_induction ?_ (fun _ h => h) h alt
    intro lead hlead rest hrest
    exact absurd hrest (unled lead hlead rest)
  · intro halt
    obtain ⟨seen, initial, closure⟩ := expandedAlternatives_closure h
    rcases closure alt (initial alt halt) with hdone | ⟨lead, rest, rfl, hlead, -⟩
    · exact hdone
    · exact absurd halt (unled lead hlead rest)

/-- Every symbol of an expanded alternative occurs in the grammar. -/
theorem mentions_of_mem_expanded (h : g.expandedAlternatives ceiling earlier name = .ok alts) :
    ∀ alt ∈ alts, ∀ s ∈ alt, g.Mentions s := by
  refine expandedAlternatives_induction ?_ (fun alt halt s hs => ⟨name, alt, halt, hs⟩) h
  intro lead _ rest hrest sub hsub s hs
  obtain ⟨front, hfront, rfl⟩ := List.mem_map.1 hsub
  rcases List.mem_append.1 hs with hs | hs
  · exact ⟨lead, front, hfront, hs⟩
  · exact hrest s (List.mem_cons_of_mem _ hs)

/-- Splicing gives no new words. -/
theorem language_le_of_mem_expanded (h : g.expandedAlternatives ceiling earlier name = .ok alts) :
    ∀ alt ∈ alts, Alternative.language g.language alt ≤ g.language name := by
  refine expandedAlternatives_induction ?_ (fun alt halt => g.language_closed name alt halt) h
  intro lead _ rest hrest sub hsub
  obtain ⟨front, hfront, rfl⟩ := List.mem_map.1 hsub
  refine le_trans ?_ hrest
  rw [Alternative.language_append, Alternative.language_cons]
  exact mul_le_mul' (g.language_closed lead front hfront) le_rfl

/-- A word of an alternative that was met is a word of one of the results: its leftmost derivation
gets shorter with every splicing, so it comes to a result before it comes to a cut. -/
theorem mem_of_unfolds_settled {g' : Grammar} {seen : List Alternative} {L : Language Kind}
    (same : ∀ lead ∈ earlier, g'.alternatives lead = g.alternatives lead)
    (closure : ∀ alt ∈ seen, alt ∈ alts ∨ ∃ lead rest, alt = .nonterminal lead :: rest ∧
      lead ∈ earlier ∧ ∀ sub ∈ Alternative.splice (g.alternatives lead) rest, sub ∈ seen)
    (results : ∀ alt ∈ alts, Alternative.language g'.language alt ≤ L)
    {n : Nat} {w : List Kind} (halt : alt ∈ seen) (h : g'.Unfolds n alt w) : w ∈ L := by
  induction n generalizing alt with
  | zero =>
    rcases closure alt halt with hdone | ⟨lead, rest, rfl, -, -⟩
    · exact results alt hdone h.mem_language
    · cases h
  | succ n ih =>
    rcases closure alt halt with hdone | ⟨lead, rest, rfl, hlead, subs⟩
    · exact results alt hdone h.mem_language
    · cases h with
      | nonterminal hfront hrest =>
        rw [same lead hlead] at hfront
        exact ih (subs _ (List.mem_map_of_mem hfront)) hrest

/-- Giving a nonterminal its expanded alternatives keeps every language. -/
theorem conservative_expanded (h : g.expandedAlternatives ceiling earlier name = .ok alts)
    (later : name ∉ earlier) : g.Conservative (g.setRule name alts) := by
  refine Conservative.setRule ?_ ?_ (language_le_of_mem_expanded h)
  · exact fun alt halt kind hk => mentions_of_mem_expanded h alt halt _ hk
  · intro alt halt w hw
    obtain ⟨seen, initial, closure⟩ := expandedAlternatives_closure h
    obtain ⟨n, hn⟩ := mem_language_iff_unfolds.1 hw
    refine mem_of_unfolds_settled ?_ closure ?_ (initial alt halt) hn
    · intro lead hlead
      refine alternatives_setRule_of_ne ?_
      rintro rfl
      exact later hlead
    · intro result hresult
      refine language_closed _ name result ?_
      rwa [alternatives_setRule_self]

end Grammar

end TopDown
