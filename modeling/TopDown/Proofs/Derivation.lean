import Mathlib
import TopDown.Grammar.Basic

/-
  Derivations and the languages of nonterminals.

  `Derives` is the textbook relation: any number of steps, each of which replaces one occurrence of
  a nonterminal by one of its alternatives. `Grammar.language` collects the words that a
  nonterminal derives.

  A meaning gives every nonterminal a language; a list of symbols then stands for the product of
  the languages of its symbols. A meaning is closed under the rules of a grammar when every
  alternative stands for part of the language of its nonterminal. The languages of a grammar are
  the least closed meaning (`language_closed`, `language_le_of_closed`), and this is how
  grammars are compared: two inclusions between closed meanings, no induction over derivations.

  Only where repetitions are cut does the length of a derivation matter. `Unfolds n` counts the
  steps of a derivation that always replaces the leftmost nonterminal (`mem_language_iff_unfolds`).
-/

namespace TopDown

/-- The language of the words with a property. -/
def wordsWith (P : List Kind → Prop) : Language Kind := {w | P w}

theorem mem_wordsWith {P : List Kind → Prop} {w : List Kind} : w ∈ wordsWith P ↔ P w := Iff.rfl

theorem language_le_iff {L M : Language Kind} : L ≤ M ↔ ∀ w ∈ L, w ∈ M := Iff.rfl

namespace Grammar

/-- One step: an occurrence of a nonterminal gives way to one of its alternatives. -/
inductive Rewrites (g : Grammar) : List Symbol → List Symbol → Prop where
  | replace (before after : List Symbol) {name : String} {alt : Alternative}
      (h : alt ∈ g.alternatives name) :
      Rewrites g (before ++ .nonterminal name :: after) (before ++ (alt ++ after))

/-- Any number of steps. -/
def Derives (g : Grammar) : List Symbol → List Symbol → Prop :=
  Relation.ReflTransGen g.Rewrites

/-- The words that a nonterminal derives. -/
def language (g : Grammar) (name : String) : Language Kind :=
  wordsWith fun w => g.Derives [.nonterminal name] (w.map .terminal)

theorem mem_language {g : Grammar} {name : String} {w : List Kind} :
    w ∈ g.language name ↔ g.Derives [.nonterminal name] (w.map .terminal) := Iff.rfl

theorem Derives.append {g : Grammar} {a b c d : List Symbol} (h₁ : g.Derives a b)
    (h₂ : g.Derives c d) : g.Derives (a ++ c) (b ++ d) := by
  have left : g.Derives (a ++ c) (b ++ c) := by
    refine h₁.lift (· ++ c) ?_
    rintro _ _ ⟨before, after, h⟩
    show g.Rewrites _ _
    simpa using Rewrites.replace before (after ++ c) h
  have right : g.Derives (b ++ c) (b ++ d) := by
    refine h₂.lift (b ++ ·) ?_
    rintro _ _ ⟨before, after, h⟩
    show g.Rewrites _ _
    simpa using Rewrites.replace (b ++ before) after h
  exact left.trans right

/-- A derivation that starts with an alternative of a nonterminal. -/
theorem derives_of_alternative {g : Grammar} {name : String} {alt : Alternative} {s : List Symbol}
    (h : alt ∈ g.alternatives name) (rest : g.Derives alt s) :
    g.Derives [.nonterminal name] s := by
  refine Relation.ReflTransGen.head ?_ rest
  simpa using Rewrites.replace [] [] h

end Grammar

/-! ## Meanings -/

/-- The language of a symbol when nonterminals have a given meaning. -/
def Symbol.language (meaning : String → Language Kind) : Symbol → Language Kind
  | .terminal kind => {[kind]}
  | .nonterminal name => meaning name

theorem Symbol.mem_language_terminal {meaning : String → Language Kind} {kind : Kind}
    {w : List Kind} : w ∈ (Symbol.terminal kind).language meaning ↔ w = [kind] := Iff.rfl

namespace Alternative

/-- The language of a list of symbols: the product of their languages. -/
def language (meaning : String → Language Kind) (s : List Symbol) : Language Kind :=
  (s.map (Symbol.language meaning)).prod

variable {meaning other : String → Language Kind}

@[simp] theorem language_nil : language meaning [] = 1 := rfl

@[simp] theorem language_cons (a : Symbol) (s : List Symbol) :
    language meaning (a :: s) = a.language meaning * language meaning s := by
  simp [language]

@[simp] theorem language_append (s t : List Symbol) :
    language meaning (s ++ t) = language meaning s * language meaning t := by
  simp [language]

theorem language_singleton (name : String) :
    language meaning [.nonterminal name] = meaning name := by
  simp [Symbol.language]

/-- A list of terminals stands for its word. -/
theorem mem_language_terminals (w : List Kind) : w ∈ language meaning (w.map .terminal) := by
  induction w with
  | nil => exact rfl
  | cons kind w ih =>
    rw [List.map_cons, language_cons]
    exact Language.append_mem_mul (Symbol.mem_language_terminal.2 rfl) ih

theorem language_mono (h : ∀ name, meaning name ≤ other name) (s : List Symbol) :
    language meaning s ≤ language other s := by
  induction s with
  | nil => exact le_rfl
  | cons a s ih =>
    rw [language_cons, language_cons]
    refine mul_le_mul' ?_ ih
    cases a with
    | terminal kind => exact le_rfl
    | nonterminal name => exact h name

/-- Only the nonterminals that occur matter. -/
theorem language_congr {s : List Symbol}
    (h : ∀ name, Symbol.nonterminal name ∈ s → meaning name = other name) :
    language meaning s = language other s := by
  induction s with
  | nil => rfl
  | cons a s ih =>
    rw [language_cons, language_cons, ih fun name hn => h name (List.mem_cons_of_mem a hn)]
    cases a with
    | terminal kind => rfl
    | nonterminal name => rw [Symbol.language, Symbol.language, h name List.mem_cons_self]

end Alternative

namespace Grammar

/-- Every alternative stands for part of the language of its nonterminal. -/
def Closed (g : Grammar) (meaning : String → Language Kind) : Prop :=
  ∀ name, ∀ alt ∈ g.alternatives name, Alternative.language meaning alt ≤ meaning name

/-- A list of symbols derives the words that its symbols derive one after the other. -/
theorem derives_of_mem_language {g : Grammar} {s : List Symbol} {w : List Kind}
    (h : w ∈ Alternative.language g.language s) : g.Derives s (w.map .terminal) := by
  induction s generalizing w with
  | nil =>
    rw [Alternative.language_nil, Language.mem_one] at h
    rw [h]
    exact Relation.ReflTransGen.refl
  | cons a s ih =>
    rw [Alternative.language_cons] at h
    obtain ⟨u, hu, v, hv, rfl⟩ := Language.mem_mul.1 h
    have first : g.Derives [a] (u.map .terminal) := by
      cases a with
      | terminal kind =>
        rw [Symbol.mem_language_terminal.1 hu]
        exact Relation.ReflTransGen.refl
      | nonterminal name => exact hu
    rw [List.map_append]
    exact first.append (ih hv)

theorem language_closed (g : Grammar) : g.Closed g.language := by
  intro name alt halt
  rw [language_le_iff]
  intro w hw
  exact derives_of_alternative halt (derives_of_mem_language hw)

theorem mem_language_of_alternative {g : Grammar} {name : String} {alt : Alternative}
    {w : List Kind} (halt : alt ∈ g.alternatives name)
    (hw : w ∈ Alternative.language g.language alt) : w ∈ g.language name :=
  g.language_closed name alt halt hw

/-- A step backwards keeps the words of a closed meaning. -/
theorem Rewrites.language_le {g : Grammar} {meaning : String → Language Kind}
    (closed : g.Closed meaning) {s t : List Symbol} (h : g.Rewrites s t) :
    Alternative.language meaning t ≤ Alternative.language meaning s := by
  obtain ⟨before, after, h⟩ := h
  simp only [Alternative.language_append, Alternative.language_cons]
  exact mul_le_mul' le_rfl (mul_le_mul' (closed _ _ h) le_rfl)

theorem mem_of_derives {g : Grammar} {meaning : String → Language Kind} (closed : g.Closed meaning)
    {s : List Symbol} {w : List Kind} (h : g.Derives s (w.map .terminal)) :
    w ∈ Alternative.language meaning s := by
  induction h using Relation.ReflTransGen.head_induction_on with
  | refl => exact Alternative.mem_language_terminals w
  | head step _ ih => exact step.language_le closed ih

/-- The languages of a grammar are the least closed meaning. -/
theorem language_le_of_closed {g : Grammar} {meaning : String → Language Kind}
    (closed : g.Closed meaning) (name : String) : g.language name ≤ meaning name := by
  rw [language_le_iff]
  intro w hw
  have := mem_of_derives closed hw
  rwa [Alternative.language_singleton] at this

theorem derives_iff_mem_language {g : Grammar} {s : List Symbol} {w : List Kind} :
    g.Derives s (w.map .terminal) ↔ w ∈ Alternative.language g.language s :=
  ⟨mem_of_derives g.language_closed, derives_of_mem_language⟩

/-- Every word of a nonterminal comes from one of its alternatives. -/
theorem exists_alternative {g : Grammar} {name : String} {w : List Kind}
    (h : w ∈ g.language name) :
    ∃ alt ∈ g.alternatives name, w ∈ Alternative.language g.language alt := by
  -- the words that come from alternatives are a closed meaning below the languages themselves
  let meaning : String → Language Kind := fun name =>
    wordsWith fun w => ∃ alt ∈ g.alternatives name, w ∈ Alternative.language g.language alt
  have below : ∀ name, meaning name ≤ g.language name := by
    intro name
    rw [language_le_iff]
    rintro w ⟨alt, halt, hw⟩
    exact mem_language_of_alternative halt hw
  have closed : g.Closed meaning := by
    intro name alt halt
    rw [language_le_iff]
    intro w hw
    exact ⟨alt, halt, Alternative.language_mono below alt hw⟩
  exact language_le_of_closed closed name h

/-- The languages of a grammar, cut down in one nonterminal to the words with a property. -/
def languageWith (g : Grammar) (name : String) (P : List Kind → Prop) : String → Language Kind :=
  Function.update g.language name (wordsWith fun w => w ∈ g.language name ∧ P w)

theorem languageWith_self {g : Grammar} {name : String} {P : List Kind → Prop} :
    g.languageWith name P name = wordsWith fun w => w ∈ g.language name ∧ P w :=
  Function.update_self ..

theorem languageWith_of_ne {g : Grammar} {name other : String} {P : List Kind → Prop}
    (h : other ≠ name) : g.languageWith name P other = g.language other :=
  Function.update_of_ne h ..

theorem languageWith_le (g : Grammar) (name : String) (P : List Kind → Prop) (other : String) :
    g.languageWith name P other ≤ g.language other := by
  by_cases h : other = name
  · subst h
    rw [languageWith_self, language_le_iff]
    exact fun w hw => hw.1
  · rw [languageWith_of_ne h]

/-- Induction over the words of one nonterminal: its alternatives give words with the property when
its own occurrences in them stand for words with the property. -/
theorem language_induction {g : Grammar} {name : String} {P : List Kind → Prop}
    (step : ∀ alt ∈ g.alternatives name,
      ∀ w ∈ Alternative.language (g.languageWith name P) alt, P w)
    {w : List Kind} (h : w ∈ g.language name) : P w := by
  have closed : g.Closed (g.languageWith name P) := by
    intro other alt halt
    rw [language_le_iff]
    intro w hw
    have known := mem_language_of_alternative halt
      (Alternative.language_mono (g.languageWith_le name P) alt hw)
    by_cases ho : other = name
    · subst ho
      rw [languageWith_self]
      exact ⟨known, step alt halt w hw⟩
    · rwa [languageWith_of_ne ho]
  have := language_le_of_closed closed name h
  rw [languageWith_self] at this
  exact this.2

/-- Two grammars whose nonterminals have the same alternatives have the same languages. -/
theorem language_congr {g g' : Grammar}
    (h : ∀ name alt, alt ∈ g'.alternatives name ↔ alt ∈ g.alternatives name) (name : String) :
    g'.language name = g.language name := by
  refine le_antisymm (language_le_of_closed ?_ name) (language_le_of_closed ?_ name)
  · exact fun other alt halt => g.language_closed other alt ((h other alt).1 halt)
  · exact fun other alt halt => g'.language_closed other alt ((h other alt).2 halt)

/-! ## Counted leftmost derivations -/

/-- `Unfolds n s w`: replacing the leftmost nonterminal `n` times turns `s` into the word `w`. -/
inductive Unfolds (g : Grammar) : Nat → List Symbol → List Kind → Prop where
  | nil : Unfolds g 0 [] []
  | terminal {n : Nat} {kind : Kind} {s : List Symbol} {w : List Kind} (h : Unfolds g n s w) :
      Unfolds g n (.terminal kind :: s) (kind :: w)
  | nonterminal {n : Nat} {name : String} {alt : Alternative} {s : List Symbol} {w : List Kind}
      (halt : alt ∈ g.alternatives name) (h : Unfolds g n (alt ++ s) w) :
      Unfolds g (n + 1) (.nonterminal name :: s) w

theorem Unfolds.append {g : Grammar} {m n : Nat} {s t : List Symbol} {u v : List Kind}
    (h₁ : g.Unfolds m s u) (h₂ : g.Unfolds n t v) : g.Unfolds (m + n) (s ++ t) (u ++ v) := by
  induction h₁ with
  | nil => simpa using h₂
  | terminal _ ih => exact ih.terminal
  | nonterminal halt _ ih =>
    rw [Nat.add_right_comm, List.cons_append]
    rw [List.append_assoc] at ih
    exact ih.nonterminal halt

/-- The replacements in two lists of symbols side by side can be told apart. -/
theorem Unfolds.split {g : Grammar} {n : Nat} {s t : List Symbol} {w : List Kind}
    (h : g.Unfolds n (s ++ t) w) :
    ∃ i j u v, n = i + j ∧ w = u ++ v ∧ g.Unfolds i s u ∧ g.Unfolds j t v := by
  generalize hr : s ++ t = r at h
  induction h generalizing s with
  | nil =>
    obtain ⟨rfl, rfl⟩ := List.append_eq_nil_iff.1 hr
    exact ⟨0, 0, [], [], rfl, rfl, .nil, .nil⟩
  | @terminal n kind r w h ih =>
    cases s with
    | nil =>
      obtain rfl : t = .terminal kind :: r := hr
      exact ⟨0, n, [], _, by omega, rfl, .nil, h.terminal⟩
    | cons a s =>
      obtain ⟨rfl, rfl⟩ := List.cons.inj hr
      obtain ⟨i, j, u, v, hn, rfl, hs, ht⟩ := ih rfl
      exact ⟨i, j, kind :: u, v, hn, rfl, hs.terminal, ht⟩
  | @nonterminal n name alt r w halt h ih =>
    cases s with
    | nil =>
      obtain rfl : t = .nonterminal name :: r := hr
      exact ⟨0, n + 1, [], _, by omega, rfl, .nil, h.nonterminal halt⟩
    | cons a s =>
      obtain ⟨rfl, rfl⟩ := List.cons.inj hr
      obtain ⟨i, j, u, v, hn, rfl, hs, ht⟩ := ih (s := alt ++ s) (List.append_assoc ..)
      exact ⟨i + 1, j, u, v, by omega, rfl, hs.nonterminal halt, ht⟩

theorem exists_unfolds_of_mem {g : Grammar} {meaning : String → Language Kind}
    (single : ∀ name, ∀ w ∈ meaning name, ∃ n, g.Unfolds n [.nonterminal name] w)
    {s : List Symbol} {w : List Kind} (h : w ∈ Alternative.language meaning s) :
    ∃ n, g.Unfolds n s w := by
  induction s generalizing w with
  | nil =>
    rw [Alternative.language_nil, Language.mem_one] at h
    exact ⟨0, h ▸ .nil⟩
  | cons a s ih =>
    rw [Alternative.language_cons] at h
    obtain ⟨u, hu, v, hv, rfl⟩ := Language.mem_mul.1 h
    obtain ⟨n, hn⟩ := ih hv
    cases a with
    | terminal kind =>
      rw [Symbol.mem_language_terminal.1 hu]
      exact ⟨n, hn.terminal⟩
    | nonterminal name =>
      obtain ⟨m, hm⟩ := single name u hu
      exact ⟨m + n, hm.append hn⟩

theorem Unfolds.mem_language {g : Grammar} {n : Nat} {s : List Symbol} {w : List Kind}
    (h : g.Unfolds n s w) : w ∈ Alternative.language g.language s := by
  induction h with
  | nil => exact rfl
  | terminal _ ih =>
    rw [Alternative.language_cons]
    exact Language.append_mem_mul (Symbol.mem_language_terminal.2 rfl) ih
  | nonterminal halt _ ih =>
    rw [Alternative.language_cons]
    rw [Alternative.language_append] at ih
    exact mul_le_mul' (g.language_closed _ _ halt) le_rfl ih

/-- Every derived word is derived by replacing leftmost nonterminals some number of times. -/
theorem mem_language_iff_unfolds {g : Grammar} {s : List Symbol} {w : List Kind} :
    w ∈ Alternative.language g.language s ↔ ∃ n, g.Unfolds n s w := by
  constructor
  · intro h
    let meaning : String → Language Kind := fun name =>
      wordsWith fun w => ∃ n, g.Unfolds n [.nonterminal name] w
    have closed : g.Closed meaning := by
      intro name alt halt
      rw [language_le_iff]
      intro w hw
      obtain ⟨n, hn⟩ := exists_unfolds_of_mem (fun _ _ h => h) hw
      exact ⟨n + 1, .nonterminal halt (by simpa using hn)⟩
    exact exists_unfolds_of_mem (fun name w hw => language_le_of_closed closed name hw) h
  · rintro ⟨n, hn⟩
    exact hn.mem_language

end Grammar

end TopDown
