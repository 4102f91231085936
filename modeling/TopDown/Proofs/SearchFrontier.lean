import TopDown.Proofs.Exploration
import TopDown.Proofs.Frontier
import TopDown.Proofs.LeftRecursion

/-
  Where a failed search of the backtracking parser says that the tokens leave the language.

  A search keeps the furthest position at which a symbol failed and the kinds wanted there, which
  is a frontier. A search that fails has tried everything, so it can be told without continuations:
  `Sweeps` goes through lists of symbols at a position, one after the other, and notes on the way
  what is wanted (`matchNonterminal_sweeps`). It may leave gaps where a call is refused for lack of
  room.

  Whatever is noted is wanted by some choice of alternatives (`Sweeps.sound`). In a grammar without
  left recursion there are no gaps, because a call that is open at the same position leads to the
  new one by a chain of leaders (`Ready`), and no such chain comes back to where it began. Then all
  that is wanted lies below the frontier, which is as far as one can get (`Sweeps.covers`,
  `Sweeps.reaches`).
-/

namespace TopDown.Backtracking

open Frontier (want)

/-- The furthest failure that has been seen. -/
def Progress.frontier (p : Progress) : Frontier := ⟨p.furthest, p.expected⟩

theorem frontier_note (p : Progress) (pos : Nat) (kind : Kind) :
    (p.note pos kind).frontier = p.frontier.note pos kind := by
  rcases Nat.lt_trichotomy p.furthest pos with later | here | earlier
  · rw [Frontier.note_of_lt later, Progress.note, if_pos later]
    rfl
  · rw [Frontier.note_of_eq here, Progress.note,
      if_neg (Nat.not_lt_of_le (Nat.le_of_eq here.symm)), if_pos here]
    rfl
  · rw [Frontier.note_of_gt earlier, Progress.note, if_neg (Nat.not_lt_of_lt earlier),
      if_neg (Nat.ne_of_gt earlier)]

/-! ## Sweeps -/

/-- One after the other, lists of symbols are matched from `pos` to the last token in all ways, each
of which fails; this moves the frontier `f` to `f'`. Where there may be `gaps`, a nonterminal may
also be passed over. -/
inductive Sweeps (g : Grammar) (tokens : Array Token) (gaps : Prop) :
    List (List Symbol) → Nat → Frontier → Frontier → Prop where
  | done {pos : Nat} {f : Frontier} : Sweeps g tokens gaps [] pos f f
  | unfinished {forms : List (List Symbol)} {pos : Nat} {f f' : Frontier}
      (more : pos ≠ tokens.size)
      (later : Sweeps g tokens gaps forms pos (f.note pos .endOfInput) f') :
      Sweeps g tokens gaps ([] :: forms) pos f f'
  | refused {kind : Kind} {rest : List Symbol} {forms : List (List Symbol)} {pos : Nat}
      {f f' : Frontier} (other : ∀ token, tokens[pos]? = some token → token.kind ≠ kind)
      (later : Sweeps g tokens gaps forms pos (f.note pos kind) f') :
      Sweeps g tokens gaps ((.terminal kind :: rest) :: forms) pos f f'
  | taken {token : Token} {rest : List Symbol} {forms : List (List Symbol)} {pos : Nat}
      {f f₁ f' : Frontier} (here : tokens[pos]? = some token)
      (first : Sweeps g tokens gaps [rest] (pos + 1) f f₁)
      (later : Sweeps g tokens gaps forms pos f₁ f') :
      Sweeps g tokens gaps ((.terminal token.kind :: rest) :: forms) pos f f'
  | entered {name : String} {rest : List Symbol} {forms : List (List Symbol)} {pos : Nat}
      {f f₁ f' : Frontier} (defined : g.alternatives name ≠ [])
      (first : Sweeps g tokens gaps ((g.alternatives name).map (· ++ rest)) pos f f₁)
      (later : Sweeps g tokens gaps forms pos f₁ f') :
      Sweeps g tokens gaps ((.nonterminal name :: rest) :: forms) pos f f'
  | passed {name : String} {rest : List Symbol} {forms : List (List Symbol)} {pos : Nat}
      {f f' : Frontier} (gap : gaps) (later : Sweeps g tokens gaps forms pos f f') :
      Sweeps g tokens gaps ((.nonterminal name :: rest) :: forms) pos f f'

namespace Sweeps

variable {g : Grammar} {tokens : Array Token} {gaps : Prop} {name : String}
  {symbols form : List Symbol} {forms : List (List Symbol)} {pos place : Nat} {kind : Kind}
  {f f₁ f' : Frontier}

theorem cons (first : Sweeps g tokens gaps [form] pos f f₁)
    (later : Sweeps g tokens gaps forms pos f₁ f') :
    Sweeps g tokens gaps (form :: forms) pos f f' := by
  cases first with
  | unfinished more last =>
    cases last
    exact .unfinished more later
  | refused other last =>
    cases last
    exact .refused other later
  | taken here first last =>
    cases last
    exact .taken here first later
  | entered defined first last =>
    cases last
    exact .entered defined first later
  | passed gap last =>
    cases last
    exact .passed gap later

/-- Nothing that was noted is lost. -/
theorem le (h : Sweeps g tokens gaps forms pos f f') : f ≤ f' := by
  induction h with
  | done => exact le_rfl
  | unfinished more later ih => exact (Frontier.le_note ..).trans ih
  | refused other later ih => exact (Frontier.le_note ..).trans ih
  | taken here first later ihFirst ih => exact ihFirst.trans ih
  | entered defined first later ihFirst ih => exact ihFirst.trans ih
  | passed gap later ih => exact ih

/-- Each of the lists is swept at some time. -/
theorem of_mem (h : Sweeps g tokens gaps forms pos f f') (hform : form ∈ forms) :
    ∃ f₁ f₂, Sweeps g tokens gaps [form] pos f₁ f₂ ∧ f₂ ≤ f' := by
  induction forms generalizing f with
  | nil => cases hform
  | cons top forms ih =>
    obtain ⟨f₁, first, later⟩ : ∃ f₁, Sweeps g tokens gaps [top] pos f f₁ ∧
        Sweeps g tokens gaps forms pos f₁ f' := by
      cases h with
      | unfinished more later => exact ⟨_, .unfinished more .done, later⟩
      | refused other later => exact ⟨_, .refused other .done, later⟩
      | taken here first later => exact ⟨_, .taken here first .done, later⟩
      | entered defined first later => exact ⟨_, .entered defined first .done, later⟩
      | passed gap later => exact ⟨_, .passed gap .done, later⟩
    rcases List.mem_cons.1 hform with rfl | hform
    · exact ⟨f, f₁, first, later.le⟩
    · exact ih later hform

/-- A kind was there before the lists or is wanted by one of them, if this holds of the first list
and of the others. -/
theorem sound_cons
    (first : kind ∈ f₁.kinds →
      kind ∈ f.kinds ∧ f₁.place = f.place ∨ Wants g tokens form pos f₁.place kind)
    (later : kind ∈ f₁.kinds ∧ f'.place = f₁.place ∨
      ∃ form ∈ forms, Wants g tokens form pos f'.place kind) :
    kind ∈ f.kinds ∧ f'.place = f.place ∨
      ∃ form' ∈ form :: forms, Wants g tokens form' pos f'.place kind := by
  rcases later with ⟨known, same⟩ | ⟨form', hform, wants⟩
  · rw [same]
    refine (first known).imp_right fun wants => ?_
    exact ⟨form, List.mem_cons_self, wants⟩
  · exact Or.inr ⟨form', List.mem_cons_of_mem _ hform, wants⟩

/-- A kind at the frontier was there before, or one of the lists wants it there. -/
theorem sound (h : Sweeps g tokens gaps forms pos f f') (hk : kind ∈ f'.kinds) :
    kind ∈ f.kinds ∧ f'.place = f.place ∨
      ∃ form ∈ forms, Wants g tokens form pos f'.place kind := by
  induction h with
  | done => exact Or.inl ⟨hk, rfl⟩
  | unfinished more later ih =>
    refine sound_cons (fun noted => (Frontier.mem_note noted).imp_right ?_) (ih hk)
    rintro ⟨rfl, here⟩
    exact here.symm ▸ .unfinished more
  | refused other later ih =>
    refine sound_cons (fun noted => (Frontier.mem_note noted).imp_right ?_) (ih hk)
    rintro ⟨rfl, here⟩
    exact here.symm ▸ .refused other
  | taken here first later ihFirst ih =>
    refine sound_cons (fun noted => (ihFirst noted).imp_right ?_) (ih hk)
    rintro ⟨form, hform, wants⟩
    exact .taken here (List.mem_singleton.1 hform ▸ wants)
  | entered defined first later ihFirst ih =>
    refine sound_cons (fun noted => (ihFirst noted).imp_right ?_) (ih hk)
    rintro ⟨form, hform, wants⟩
    obtain ⟨alt, halt, rfl⟩ := List.mem_map.1 hform
    exact .entered halt wants
  | passed gap later ih => exact sound_cons (fun known => Or.inl ⟨known, rfl⟩) (ih hk)

/-- The frontier lies below every bound on the old one and on all that is wanted. -/
theorem le_of_wants {bound : Frontier} (h : Sweeps g tokens gaps forms pos f f') (below : f ≤ bound)
    (all : ∀ form ∈ forms, ∀ place kind,
      Wants g tokens form pos place kind → want place kind ≤ bound) : f' ≤ bound := by
  induction h with
  | done => exact below
  | unfinished more later ih =>
    rw [List.forall_mem_cons] at all
    exact ih (Frontier.note_le below (all.1 _ _ (.unfinished more))) all.2
  | refused other later ih =>
    rw [List.forall_mem_cons] at all
    exact ih (Frontier.note_le below (all.1 _ _ (.refused other))) all.2
  | taken here first later ihFirst ih =>
    rw [List.forall_mem_cons] at all
    refine ih (ihFirst below ?_) all.2
    exact List.forall_mem_singleton.2 fun place kind wants => all.1 _ _ (.taken here wants)
  | entered defined first later ihFirst ih =>
    rw [List.forall_mem_cons] at all
    refine ih (ihFirst below ?_) all.2
    exact List.forall_mem_map.2 fun alt halt place kind wants => all.1 _ _ (.entered halt wants)
  | passed gap later ih => exact ih below (List.forall_mem_cons.1 all).2

/-- A frontier that has moved has kinds. -/
theorem eq_or_exists_mem (h : Sweeps g tokens gaps forms pos f f') :
    f' = f ∨ ∃ kind, kind ∈ f'.kinds := by
  have step : ∀ {f f₁ f' : Frontier}, (f₁ = f ∨ ∃ kind, kind ∈ f₁.kinds) →
      (f' = f₁ ∨ ∃ kind, kind ∈ f'.kinds) → f' = f ∨ ∃ kind, kind ∈ f'.kinds := by
    rintro f f₁ f' first (rfl | later)
    · exact first
    · exact Or.inr later
  induction h with
  | done => exact Or.inl rfl
  | unfinished more later ih => exact step (Frontier.note_eq_or_mem.imp_right fun h => ⟨_, h⟩) ih
  | refused other later ih => exact step (Frontier.note_eq_or_mem.imp_right fun h => ⟨_, h⟩) ih
  | taken here first later ihFirst ih => exact step ihFirst ih
  | entered defined first later ihFirst ih => exact step ihFirst ih
  | passed gap later ih => exact ih

theorem of_nil (h : Sweeps g tokens gaps [] pos f f') : f' = f := by
  cases h
  rfl

theorem of_terminal (h : Sweeps g tokens gaps [.terminal kind :: symbols] pos f f') :
    (∀ token, tokens[pos]? = some token → token.kind ≠ kind) ∧ f' = f.note pos kind ∨
      ∃ token, tokens[pos]? = some token ∧ token.kind = kind ∧
        Sweeps g tokens gaps [symbols] (pos + 1) f f' := by
  cases h with
  | refused other later =>
    cases later
    exact Or.inl ⟨other, rfl⟩
  | taken here first later =>
    cases later
    exact Or.inr ⟨_, here, rfl, first⟩

/-! ## Sweeps without gaps -/

theorem of_nonterminal (h : Sweeps g tokens False [.nonterminal name :: symbols] pos f f') :
    g.alternatives name ≠ [] ∧
      Sweeps g tokens False ((g.alternatives name).map (· ++ symbols)) pos f f' := by
  cases h with
  | entered defined first later =>
    cases later
    exact ⟨defined, first⟩
  | passed gap => exact gap.elim

theorem covers_single (wants : Wants g tokens form pos place kind)
    (h : Sweeps g tokens False [form] pos f f') : want place kind ≤ f' := by
  induction wants generalizing f f' with
  | unfinished more =>
    cases h with
    | unfinished _ later => exact (Frontier.want_le_note ..).trans later.le
  | refused other =>
    rcases h.of_terminal with ⟨-, rfl⟩ | ⟨token, here, same, -⟩
    · exact Frontier.want_le_note ..
    · exact absurd same (other token here)
  | taken here wants ih =>
    rcases h.of_terminal with ⟨other, -⟩ | ⟨-, -, -, later⟩
    · exact absurd rfl (other _ here)
    · exact ih later
  | entered halt wants ih =>
    obtain ⟨f₁, f₂, swept, le⟩ := h.of_nonterminal.2.of_mem (List.mem_map_of_mem halt)
    exact (ih swept).trans le

/-- Without gaps, all that is wanted lies below the frontier. -/
theorem covers (h : Sweeps g tokens False forms pos f f') (hform : form ∈ forms)
    (wants : Wants g tokens form pos place kind) : want place kind ≤ f' := by
  obtain ⟨f₁, f₂, swept, le⟩ := h.of_mem hform
  exact (covers_single wants swept).trans le

/-- Without gaps, something is wanted. -/
theorem exists_wants (h : Sweeps g tokens False forms pos f f') (nonempty : forms ≠ []) :
    ∃ form ∈ forms, ∃ place kind, Wants g tokens form pos place kind := by
  induction h with
  | done => exact absurd rfl nonempty
  | unfinished more => exact ⟨_, List.mem_cons_self, _, _, .unfinished more⟩
  | refused other => exact ⟨_, List.mem_cons_self, _, _, .refused other⟩
  | taken here first later ihFirst =>
    obtain ⟨form, hform, place, kind, wants⟩ := ihFirst (List.cons_ne_nil _ _)
    obtain rfl := List.mem_singleton.1 hform
    exact ⟨_, List.mem_cons_self, place, kind, .taken here wants⟩
  | entered defined first later ihFirst =>
    obtain ⟨form, hform, place, kind, wants⟩ := ihFirst (mt List.map_eq_nil_iff.1 defined)
    obtain ⟨alt, halt, rfl⟩ := List.mem_map.1 hform
    exact ⟨_, List.mem_cons_self, place, kind, .entered halt wants⟩
  | passed gap => exact gap.elim

/-- Without gaps, some kind is noted. -/
theorem exists_mem (h : Sweeps g tokens False forms pos ⟨0, ∅⟩ f') (nonempty : forms ≠ []) :
    ∃ kind, kind ∈ f'.kinds := by
  obtain ⟨form, hform, place, kind, wants⟩ := h.exists_wants nonempty
  rcases h.eq_or_exists_mem with rfl | noted
  · rcases Frontier.want_le_iff.1 (h.covers hform wants) with below | ⟨-, known⟩
    · exact absurd below (Nat.not_lt_zero place)
    · exact ⟨kind, known⟩
  · exact noted

/-- Without gaps, the frontier is as far as one can get. -/
theorem reaches (reached : Reaches g tokens form pos place)
    (h : Sweeps g tokens False [form] pos f f') : place ≤ f'.place := by
  induction reached generalizing f f' with
  | here =>
    obtain ⟨form, hform, place, kind, wants⟩ := h.exists_wants (List.cons_ne_nil _ _)
    exact wants.le.trans (Frontier.place_le (h.covers hform wants))
  | taken here later ih =>
    rcases h.of_terminal with ⟨other, -⟩ | ⟨-, -, -, swept⟩
    · exact absurd rfl (other _ here)
    · exact ih swept
  | entered halt later ih =>
    obtain ⟨f₁, f₂, swept, le⟩ := h.of_nonterminal.2.of_mem (List.mem_map_of_mem halt)
    exact (ih swept).trans (Frontier.place_le le)

end Sweeps

/-! ## Calls that are open -/

variable {α : Type} {g : Grammar} {limits : Limits} {tokens : Array Token} {calls : List Call}
  {name : String} {kind : Kind} {symbols rest : List Symbol} {pos stop : Nat} {p q : Progress}
  {gaps : Prop}

/-- The nonterminals to be matched have alternatives, and each open call began earlier, or began
here and leads to whatever can come first. -/
structure Ready (g : Grammar) (calls : List Call) (symbols : List Symbol) (pos : Nat) : Prop where
  defined : ∀ name, .nonterminal name ∈ symbols → g.alternatives name ≠ []
  began : ∀ c ∈ calls, c.pos ≤ pos
  leads : ∀ c ∈ calls, c.pos = pos → ∀ inner ∈ Alternative.leaders g.nullable symbols,
    Relation.TransGen g.Leads c.name inner

namespace Ready

theorem head (h : Ready g calls (.nonterminal name :: symbols) pos) :
    Ready g calls [.nonterminal name] pos where
  defined inner hinner := h.defined inner (by
    rw [List.mem_singleton] at hinner
    exact hinner ▸ List.mem_cons_self)
  began := h.began
  leads c hc here inner hinner := h.leads c hc here inner (by
    rw [Alternative.mem_leaders_cons] at hinner ⊢
    exact hinner.imp_right fun later => absurd later.2 List.not_mem_nil)

theorem afterTerminal (h : Ready g calls (.terminal kind :: symbols) pos) :
    Ready g calls symbols (pos + 1) where
  defined inner hinner := h.defined inner (List.mem_cons_of_mem _ hinner)
  began c hc := Nat.le_succ_of_le (h.began c hc)
  leads c hc here := by
    have := h.began c hc
    omega

theorem afterNonterminal (h : Ready g calls (.nonterminal name :: symbols) pos) (le : pos ≤ stop)
    (empty : stop = pos → name ∈ g.nullable) : Ready g calls symbols stop where
  defined inner hinner := h.defined inner (List.mem_cons_of_mem _ hinner)
  began c hc := (h.began c hc).trans le
  leads c hc here inner hinner := by
    obtain rfl : stop = pos := Nat.le_antisymm (here ▸ h.began c hc) le
    exact h.leads c hc here inner (Alternative.mem_leaders_cons.2 (Or.inr ⟨empty rfl, hinner⟩))

theorem enter (h : Ready g calls [.nonterminal name] pos)
    (defined : ∀ name, g.Mentions (.nonterminal name) → g.alternatives name ≠ [])
    {alt : Alternative} (halt : alt ∈ g.alternatives name) :
    Ready g (⟨pos, name⟩ :: calls) alt pos where
  defined inner hinner := defined inner ⟨name, alt, halt, hinner⟩
  began := List.forall_mem_cons.2 ⟨Nat.le_refl pos, h.began⟩
  leads c hc here inner hinner := by
    have lead : g.Leads name inner := ⟨alt, halt, hinner⟩
    rcases List.mem_cons.1 hc with rfl | hc
    · exact .single lead
    · exact (h.leads c hc here name (Alternative.mem_leaders_cons.2 (Or.inl rfl))).tail lead

/-- Without a chain of leaders that comes back, the call is not open. -/
theorem count_eq_zero (h : Ready g calls [.nonterminal name] pos)
    (acyclic : ∀ name, ¬ Relation.TransGen g.Leads name name) : calls.count ⟨pos, name⟩ = 0 := by
  rw [List.count_eq_zero]
  intro hc
  exact acyclic name (h.leads _ hc rfl name (Alternative.mem_leaders_cons.2 (Or.inl rfl)))

end Ready

/-! ## Searches that fail -/

/-- After any match of `symbols`, a continuation that fails has swept what is left. -/
def Heeds (g : Grammar) (tokens : Array Token) (gaps : Prop) (symbols : List Symbol) (pos : Nat)
    (rest : List Symbol) (next : Continuation α) : Prop :=
  ∀ stop value p q, pos ≤ stop → (stop = pos → g.lookahead.isNullable symbols = true) →
    next stop value p = .failed q → Sweeps g tokens gaps [rest] stop p.frontier q.frontier

/-- Counting a step does not move the frontier. -/
theorem exists_of_tick_eq_failed {next : Progress → Outcome}
    (h : tick limits pos p next = .failed q) :
    ∃ p₁ : Progress, p.frontier = p₁.frontier ∧ next p₁ = .failed q :=
  ⟨{ p with steps := p.steps + 1 }, rfl, tick_eq_failed h⟩

theorem tryEach_sweeps {attempt : Alternative → Progress → Outcome} {alts : List Alternative}
    (each : ∀ alt ∈ alts, ∀ p q, attempt alt p = .failed q →
      Sweeps g tokens gaps [alt ++ rest] pos p.frontier q.frontier)
    (h : tryEach attempt alts p = .failed q) :
    Sweeps g tokens gaps (alts.map (· ++ rest)) pos p.frontier q.frontier := by
  induction alts generalizing p with
  | nil =>
    cases h
    exact .done
  | cons alt alts ih =>
    rw [List.forall_mem_cons] at each
    rw [tryEach] at h
    split at h
    · next p₁ first => exact (each.1 p p₁ first).cons (ih each.2 h)
    · next refused => exact absurd h (refused q)

theorem matchSequence_sweeps {enter : String → Nat → Continuation Tree → Progress → Outcome}
    (henter : ∀ inner mid rest next p q, gaps ∨ Ready g calls [.nonterminal inner] mid →
      Heeds g tokens gaps [.nonterminal inner] mid rest next → enter inner mid next p = .failed q →
      Sweeps g tokens gaps [.nonterminal inner :: rest] mid p.frontier q.frontier)
    {next : Continuation (List Tree)} (ready : gaps ∨ Ready g calls symbols pos)
    (heeds : Heeds g tokens gaps symbols pos rest next)
    (h : matchSequence limits tokens enter symbols pos next p = .failed q) :
    Sweeps g tokens gaps [symbols ++ rest] pos p.frontier q.frontier := by
  induction symbols generalizing pos next p q with
  | nil => exact heeds pos [] p q (Nat.le_refl pos) (fun _ => rfl) h
  | cons a symbols ih =>
    cases a with
    | terminal kind =>
      rw [matchSequence] at h
      obtain ⟨p₁, frontier, failed⟩ := exists_of_tick_eq_failed h
      rw [frontier, List.cons_append]
      have refused (other : ∀ token, tokens[pos]? = some token → token.kind ≠ kind) :
          Sweeps g tokens gaps [.terminal kind :: (symbols ++ rest)] pos p₁.frontier
            (p₁.note pos kind).frontier := by
        rw [frontier_note]
        exact .refused other .done
      split at failed
      · next token here =>
        split at failed
        · next same =>
          subst same
          refine .taken here (ih (ready.imp_right Ready.afterTerminal) ?_ failed) .done
          intro stop trees p q le _ failed
          exact heeds stop _ p q (by omega) (by omega) failed
        · next other =>
          cases failed
          refine refused fun token' here' => ?_
          rw [here] at here'
          cases here'
          exact other
      · next none =>
        cases failed
        refine refused fun token here => ?_
        rw [none] at here
        cases here
    | nonterminal inner =>
      rw [matchSequence] at h
      obtain ⟨p₁, frontier, failed⟩ := exists_of_tick_eq_failed h
      rw [frontier]
      refine henter inner pos (symbols ++ rest) _ _ _ (ready.imp_right Ready.head) ?_ failed
      intro mid tree p q le empty failed
      have after : gaps ∨ Ready g calls symbols mid := ready.imp_right fun ready =>
        ready.afterNonterminal le fun same => Lookahead.isNullable_nonterminal.1 (empty same)
      refine ih after ?_ failed
      intro stop trees p q le' empty' failed
      refine heeds stop _ p q (le.trans le') ?_ failed
      intro same
      exact Lookahead.isNullable_cons.2 ⟨empty (by omega), empty' (by omega)⟩

/-- No chain of leaders comes back, and every nonterminal in a rule has alternatives. -/
structure Straight (g : Grammar) : Prop where
  acyclic : ∀ name, ¬ Relation.TransGen g.Leads name name
  defined : ∀ name, g.Mentions (.nonterminal name) → g.alternatives name ≠ []

/-- A search for a nonterminal that fails is a sweep. It leaves no gaps in a straight grammar where
the call is ready. -/
theorem matchNonterminal_sweeps {ceiling depth : Nat} {next : Continuation Tree}
    (ready : gaps ∨ Straight g ∧ Ready g calls [.nonterminal name] pos)
    (heeds : Heeds g tokens gaps [.nonterminal name] pos rest next)
    (h : matchNonterminal g limits tokens ceiling calls depth name pos next p = .failed q) :
    Sweeps g tokens gaps [.nonterminal name :: rest] pos p.frontier q.frontier := by
  induction ceiling generalizing calls depth name pos rest next p q with
  | zero => cases h
  | succ ceiling ih =>
    rw [matchNonterminal] at h
    split at h
    · next full =>
      cases h
      rcases ready with gap | ⟨straight, ready⟩
      · exact .passed gap .done
      · rw [ready.count_eq_zero straight.acyclic] at full
        omega
    · split at h
      · cases h
      · have swept : Sweeps g tokens gaps ((g.alternatives name).map (· ++ rest)) pos p.frontier
            q.frontier := by
          refine tryEach_sweeps (fun alt halt p q failed => ?_) h
          have entered : gaps ∨ Ready g (⟨pos, name⟩ :: calls) alt pos :=
            ready.imp_right fun held => held.2.enter held.1.defined halt
          refine matchSequence_sweeps ?_ entered ?_ failed
          · intro inner mid rest next p q inside heeds failed
            refine ih ?_ heeds failed
            rcases ready with gap | ⟨straight, -⟩
            · exact Or.inl gap
            · exact inside.imp_right fun inside => ⟨straight, inside⟩
          · intro stop trees p q le empty failed
            refine heeds stop _ p q le (fun same => ?_) failed
            exact Lookahead.isNullable_nonterminal.2
              (Grammar.mem_nullable_iff.2 ⟨alt, halt, empty same⟩)
        by_cases defined : g.alternatives name = []
        · rcases ready with gap | ⟨-, ready⟩
          · rw [defined] at swept
            exact swept.of_nil ▸ .passed gap .done
          · exact absurd defined (ready.defined name List.mem_cons_self)
        · exact .entered defined swept .done

/-- A search that fails sweeps all that the start symbol can stand for, with gaps only in a grammar
with left recursion. -/
theorem search_sweeps {ceiling : Nat} {start : String} (hstart : g.start = some start)
    (valid : g.validate = .ok ()) (gaps : Prop) (straight : gaps ∨ g.leftRecursive = [])
    (h : search ceiling g limits tokens = .failed q) :
    Sweeps g tokens gaps [[.nonterminal start]] 0 ⟨0, ∅⟩ q.frontier := by
  obtain ⟨start', hstart', present, defined⟩ := Grammar.validate_eq_ok_iff.1 valid
  obtain rfl : start' = start := Option.some.inj (hstart'.symm.trans hstart)
  rw [search, hstart] at h
  refine matchNonterminal_sweeps (p := .start) (straight.imp_right fun none => ⟨?_, ?_⟩) ?_ h
  · exact ⟨Grammar.not_leads_self none, defined⟩
  · refine ⟨?_, fun c hc => absurd hc List.not_mem_nil, fun c hc => absurd hc List.not_mem_nil⟩
    intro name hname
    rw [List.mem_singleton] at hname
    cases hname
    exact present
  · intro stop tree p q _ _ failed
    unfold finish at failed
    split at failed
    · cases failed
    · next more =>
      cases failed
      rw [frontier_note]
      exact .unfinished more .done

end TopDown.Backtracking
