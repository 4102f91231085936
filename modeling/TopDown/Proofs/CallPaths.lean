import TopDown.Proofs.Curtailment
import TopDown.Proofs.LeftRecursion

/-
  The admitted trees, told by their paths.

  `Path ts pos calls` says that `calls` are the calls on a way down into one of the trees `ts`,
  which stand one after the other from `pos` on. A tree is curtailed when no way down from its root
  carries one call more often than there are tokens left at its position, and once more. Among the
  derivation trees of the tokens, these are the admitted ones (`admitted_iff`).

  Without left recursion every derivation tree is curtailed (`curtailed_of_not_leftRecursive`): a
  call leads by a chain of leaders to every call below it at the same position, so none comes twice
  on one way down.
-/

namespace TopDown

open Grammar (Leads)

namespace Backtracking

variable {g : Grammar} {tokens : Array Token} {calls path : List Call} {pos stop : Nat}
  {ts : List Tree} {t : Tree}

/-- The calls on a way down into one of several trees that stand one after the other. -/
inductive Path : List Tree → Nat → List Call → Prop where
  | here {name : String} {children rest : List Tree} {pos : Nat} :
      Path (.node name children :: rest) pos [⟨pos, name⟩]
  | down {name : String} {children rest : List Tree} {pos : Nat} {calls : List Call}
      (deeper : Path children pos calls) :
      Path (.node name children :: rest) pos (⟨pos, name⟩ :: calls)
  | beside {t : Tree} {rest : List Tree} {pos : Nat} {calls : List Call}
      (later : Path rest (pos + t.leaves.length) calls) : Path (t :: rest) pos calls

/-- No way down from the root carries a call more often than there are tokens left at its position,
and once more. -/
def Curtailed (tokens : List Token) (t : Tree) : Prop :=
  ∀ path, Path [t] 0 path → ∀ call : Call, path.count call ≤ tokens.length - call.pos + 1

/-! ## Room along paths -/

/-- Inside the open calls of an admitted tree, no path takes more room than there is. -/
theorem Admitted.count_add_le (h : Admitted g tokens calls ts pos stop) (hpath : Path ts pos path)
    (within : ∀ c : Call, calls.count c ≤ tokens.size - c.pos + 1) (c : Call) :
    calls.count c + path.count c ≤ tokens.size - c.pos + 1 := by
  have entered : ∀ {calls : List Call} {call : Call},
      (∀ c : Call, calls.count c ≤ tokens.size - c.pos + 1) →
      calls.count call < tokens.size - call.pos + 1 →
      ∀ c : Call, (call :: calls).count c ≤ tokens.size - c.pos + 1 := by
    intro calls call within room c
    rw [List.count_cons]
    split
    · next same =>
      obtain rfl := eq_of_beq same
      exact room
    · exact within c
  induction hpath generalizing calls stop with
  | here =>
    cases h with
    | node room alt below rest =>
      have full := entered within room c
      rw [List.count_cons] at full ⊢
      rw [List.count_nil]
      omega
  | down deeper ih =>
    cases h with
    | node room alt below rest =>
      have full := ih below (entered within room)
      rw [List.count_cons] at full ⊢
      omega
  | beside later ih =>
    obtain ⟨mid, first, rest⟩ := h.uncons
    have ends := first.segment.2
    rw [Tree.leavesOf_singleton] at ends
    subst ends
    exact ih rest within

/-- Trees side by side are admitted when each of them is, wherever the paths leave room for it. -/
theorem admitted_of_room (single : ∀ t ∈ ts, ∀ pos stop,
      Segment tokens.toList pos stop t.leaves →
      (∀ path, Path [t] pos path →
        ∀ c : Call, calls.count c + path.count c ≤ tokens.size - c.pos + 1) →
      Admitted g tokens calls [t] pos stop)
    (covered : Segment tokens.toList pos stop (Tree.leavesOf ts))
    (room : ∀ path, Path ts pos path →
      ∀ c : Call, calls.count c + path.count c ≤ tokens.size - c.pos + 1) :
    Admitted g tokens calls ts pos stop := by
  induction ts generalizing pos with
  | nil =>
    obtain rfl := segment_nil.1 covered
    exact .nil
  | cons t ts ih =>
    rw [List.forall_mem_cons] at single
    rw [Tree.leavesOf] at covered
    obtain ⟨mid, first, rest⟩ := segment_append.1 covered
    have ends := first.2
    subst ends
    refine (single.1 pos _ first fun path hpath => ?_).append
      (ih single.2 rest fun path hpath => room path (.beside hpath))
    refine room path ?_
    cases hpath with
    | here => exact .here
    | down deeper => exact .down deeper
    | beside later => cases later

theorem admitted_of_isDerivation (derivation : t.IsDerivation g)
    (covered : Segment tokens.toList pos stop t.leaves)
    (room : ∀ path, Path [t] pos path →
      ∀ c : Call, calls.count c + path.count c ≤ tokens.size - c.pos + 1) :
    Admitted g tokens calls [t] pos stop := by
  induction derivation generalizing calls pos stop with
  | leaf token =>
    rw [Tree.leaves, segment_cons, Array.getElem?_toList] at covered
    obtain ⟨here, ended⟩ := covered
    obtain rfl := segment_nil.1 ended
    exact .leaf here .nil
  | @node name children alt below ih =>
    have own := room [⟨pos, name⟩] .here ⟨pos, name⟩
    rw [List.count_cons_self, List.count_nil] at own
    have inside : calls.count ⟨pos, name⟩ < tokens.size - pos + 1 := by
      dsimp only at own
      omega
    refine .node inside alt (admitted_of_room (fun t ht pos stop => ih t ht) covered ?_) .nil
    intro path hpath c
    have full := room _ (.down hpath) c
    rw [List.count_cons] at full ⊢
    omega

/-- The admitted trees of the tokens are the derivation trees that are curtailed. -/
theorem admitted_iff {tokens : List Token} :
    Admitted g tokens.toArray [] [t] 0 tokens.length ↔
      t.IsDerivation g ∧ t.leaves = tokens ∧ Curtailed tokens t := by
  have whole : ∀ {w : List Token}, Segment tokens 0 tokens.length w ↔ w = tokens := segment_whole
  constructor
  · intro h
    have covered := h.segment
    rw [Tree.leavesOf_singleton, whole] at covered
    refine ⟨h.isDerivation t List.mem_cons_self, covered, fun path hpath call => ?_⟩
    have full := h.count_add_le hpath (fun c => Nat.zero_le _) call
    rwa [List.count_nil, Nat.zero_add] at full
  · rintro ⟨derivation, leaves, curtailed⟩
    refine admitted_of_isDerivation derivation (whole.2 leaves) fun path hpath call => ?_
    rw [List.count_nil, Nat.zero_add]
    exact curtailed path hpath call

/-! ## Paths without left recursion -/

/-- A derivation tree without leaves stands for a nullable nonterminal. -/
theorem exists_nullable_of_leaves_eq_nil (derivation : t.IsDerivation g) (bare : t.leaves = []) :
    ∃ name, t.symbol = .nonterminal name ∧ name ∈ g.nullable := by
  cases t with
  | leaf token => cases bare
  | node name children =>
    have word : [] ∈ Alternative.language g.language [.nonterminal name] := by
      have word := derivation.mem_language
      rw [Tree.word, bare] at word
      rwa [Alternative.language_singleton]
    have foreseen : g.lookahead.isNullable [.nonterminal name] = true :=
      Grammar.foresees_of_mem word
    exact ⟨name, rfl, Lookahead.isNullable_nonterminal.1 foreseen⟩

/-- A call on a path is at the end of a chain from something that can come first, unless it stands
further on. -/
theorem Path.leads (hpath : Path ts pos path) (derivations : ∀ t ∈ ts, t.IsDerivation g) :
    ∀ c ∈ path, pos ≤ c.pos ∧ (c.pos = pos →
      ∃ first ∈ Alternative.leaders g.nullable (ts.map Tree.symbol),
        Relation.ReflTransGen g.Leads first c.name) := by
  induction hpath with
  | here =>
    rw [List.forall_mem_singleton]
    exact ⟨le_rfl, fun _ => ⟨_, Alternative.mem_leaders_cons.2 (Or.inl rfl), .refl⟩⟩
  | @down name children rest pos calls deeper ih =>
    rw [List.forall_mem_cons] at derivations ⊢
    cases derivations.1 with
    | node alt below =>
      have own : name ∈ Alternative.leaders g.nullable
          (.nonterminal name :: rest.map Tree.symbol) := Alternative.mem_leaders_cons.2 (Or.inl rfl)
      refine ⟨⟨le_rfl, fun _ => ⟨name, own, .refl⟩⟩, fun c hc => ?_⟩
      obtain ⟨later, chain⟩ := ih below c hc
      refine ⟨later, fun same => ?_⟩
      obtain ⟨first, lead, chain⟩ := chain same
      exact ⟨name, own, .head ⟨_, alt, lead⟩ chain⟩
  | @beside t rest pos calls later ih =>
    rw [List.forall_mem_cons] at derivations
    intro c hc
    obtain ⟨further, chain⟩ := ih derivations.2 c hc
    refine ⟨by omega, fun same => ?_⟩
    have bare : t.leaves = [] := List.eq_nil_of_length_eq_zero (by omega)
    obtain ⟨name, symbol, null⟩ := exists_nullable_of_leaves_eq_nil derivations.1 bare
    obtain ⟨first, lead, chain⟩ := chain (by omega)
    rw [List.map_cons, symbol]
    exact ⟨first, Alternative.mem_leaders_cons.2 (Or.inr ⟨null, lead⟩), chain⟩

/-- Without left recursion, no call comes twice on one path. -/
theorem Path.nodup (acyclic : g.leftRecursive = []) (hpath : Path ts pos path)
    (derivations : ∀ t ∈ ts, t.IsDerivation g) : path.Nodup := by
  induction hpath with
  | here => exact List.nodup_singleton _
  | @down name children rest pos calls deeper ih =>
    rw [List.forall_mem_cons] at derivations
    cases derivations.1 with
    | node alt below =>
      refine List.nodup_cons.2 ⟨fun again => ?_, ih below⟩
      obtain ⟨first, lead, chain⟩ := (deeper.leads below _ again).2 rfl
      exact Grammar.not_leads_self acyclic name (.head' ⟨_, alt, lead⟩ chain)
  | beside later ih => exact ih (List.forall_mem_cons.1 derivations).2

/-- Without left recursion, every derivation tree is curtailed. -/
theorem curtailed_of_not_leftRecursive (acyclic : g.leftRecursive = [])
    (derivation : t.IsDerivation g) (tokens : List Token) : Curtailed tokens t := by
  intro path hpath call
  have once := List.nodup_iff_count_le_one.1
    (hpath.nodup acyclic (List.forall_mem_singleton.2 derivation)) call
  omega

end Backtracking

end TopDown
