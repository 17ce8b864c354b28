import Mathlib.Data.List.Basic

/-! # Parsers with one token of lookahead

    A parser takes tokens from a source and returns a value, or throws. It
    recognises a set of phrases if it returns what the phrases mean and
    consumes just them, for whatever may follow them: a parser that stops
    where the next token does not go on needs to know that it does not.

    The rules go by how the parser is made up: sequence, a token, a choice
    on the next token, and lists with separators and a limit.
-/

namespace Recognise

universe u

variable {σ τ ε α β : Type u}

/-- A parser over a source of tokens. -/
abbrev Parser (σ ε α : Type u) := StateT σ (Except ε) α

/-- `next` takes a token from the source and `peek` looks at it; behind the last
    one both see `eof`. -/
structure Source (view : σ → List τ) (next peek : Parser σ ε τ) (eof : τ) : Prop where
  next_cons : ∀ {s t ts}, view s = t :: ts → ∃ s', next s = .ok (t, s') ∧ view s' = ts
  next_nil : ∀ {s}, view s = [] → ∃ s', next s = .ok (eof, s')
  peek_cons : ∀ {s t ts}, view s = t :: ts → ∃ s', peek s = .ok (t, s') ∧ view s' = t :: ts
  peek_nil : ∀ {s}, view s = [] → ∃ s', peek s = .ok (eof, s') ∧ view s' = []

/-- `p` returns `a` from the phrases `D · a`, and consumes them; `F` holds of what
    may follow. -/
structure Recognises (view : σ → List τ) (p : Parser σ ε α) (D : List τ → α → Prop)
    (F : List τ → Prop) : Prop where
  sound : ∀ {s a s'}, p s = .ok (a, s') → ∃ used, view s = used ++ view s' ∧ D used a
  complete : ∀ {s used a rest}, D used a → F rest → view s = used ++ rest →
    ∃ s', p s = .ok (a, s') ∧ view s' = rest

/-- Anything may follow. -/
def Anything : List τ → Prop := fun _ => True

/-- The next token is none that `c` holds of. -/
def NotNext (c : τ → Prop) (rest : List τ) : Prop := ∀ t, rest.head? = some t → ¬ c t

/-- One phrase after the other. -/
def Seq (D₁ : List τ → α → Prop) (D₂ : α → List τ → β → Prop) (used : List τ) (b : β) : Prop :=
  ∃ used₁ used₂ a, used = used₁ ++ used₂ ∧ D₁ used₁ a ∧ D₂ a used₂ b

/-- One token, and a phrase after it. -/
def Token (D : τ → List τ → α → Prop) (used : List τ) (a : α) : Prop :=
  ∃ t used', used = t :: used' ∧ D t used' a

/-! ## Section 1: Sequence and choice -/

section rules

variable {view : σ → List τ} {next peek : Parser σ ε τ} {eof : τ} {F F' : List τ → Prop}

theorem bind_ok {p : Parser σ ε α} {q : α → Parser σ ε β} {s s' : σ} {b : β}
    (h : (p >>= q) s = .ok (b, s')) : ∃ a s₁, p s = .ok (a, s₁) ∧ q a s₁ = .ok (b, s') := by
  change (p s).bind (fun x => q x.1 x.2) = .ok (b, s') at h
  cases hp : p s with
  | error e =>
    rw [hp] at h
    cases h
  | ok x =>
    rw [hp] at h
    exact ⟨x.1, x.2, rfl, h⟩

theorem bind_eq {p : Parser σ ε α} (q : α → Parser σ ε β) {s s₁ : σ} {a : α}
    (h : p s = .ok (a, s₁)) : (p >>= q) s = q a s₁ := by
  change (p s).bind (fun x => q x.1 x.2) = _
  rw [h]
  rfl

theorem Recognises.pure (a : α) :
    Recognises (ε := ε) view (pure a) (fun used b => used = [] ∧ b = a) Anything where
  sound := by
    intro s b s' h
    obtain ⟨rfl, rfl⟩ := Prod.mk.inj (Except.ok.inj h)
    exact ⟨[], rfl, rfl, rfl⟩
  complete := by
    rintro s used b rest ⟨rfl, rfl⟩ _ hview
    exact ⟨s, rfl, hview⟩

theorem Recognises.throw (e : ε) :
    Recognises (α := α) view (throw e) (fun _ _ => False) F where
  sound := by
    intro s a s' h
    cases h
  complete := by
    intro s used a rest h
    exact h.elim

/-- **Sequence**. What follows the first phrase is the second one. -/
theorem Recognises.bind {p : Parser σ ε α} {q : α → Parser σ ε β} {D₁ : List τ → α → Prop}
    {D₂ : α → List τ → β → Prop} (hp : Recognises view p D₁ F) (hq : ∀ a, Recognises view (q a) (D₂ a) F')
    (hF : ∀ a used b rest, D₂ a used b → F' rest → F (used ++ rest)) :
    Recognises view (p >>= q) (Seq D₁ D₂) F' where
  sound := by
    intro s b s' h
    obtain ⟨a, s₁, hfirst, hsecond⟩ := bind_ok h
    obtain ⟨used₁, hview₁, hD₁⟩ := hp.sound hfirst
    obtain ⟨used₂, hview₂, hD₂⟩ := (hq a).sound hsecond
    refine ⟨used₁ ++ used₂, ?_, used₁, used₂, a, rfl, hD₁, hD₂⟩
    rw [hview₁, hview₂, List.append_assoc]
  complete := by
    rintro s used b rest ⟨used₁, used₂, a, rfl, hD₁, hD₂⟩ hrest hview
    rw [List.append_assoc] at hview
    obtain ⟨s₁, hfirst, hview₁⟩ := hp.complete hD₁ (hF a used₂ b rest hD₂ hrest) hview
    obtain ⟨s', hsecond, hview'⟩ := (hq a).complete hD₂ hrest hview₁
    refine ⟨s', ?_, hview'⟩
    rw [bind_eq q hfirst]
    exact hsecond

/-- The phrases and what may follow them may be written another way. -/
theorem Recognises.congr {p : Parser σ ε α} {D D' : List τ → α → Prop} (h : Recognises view p D F)
    (hD : ∀ used a, D' used a ↔ D used a) (hF : ∀ rest, F' rest → F rest) :
    Recognises view p D' F' where
  sound := by
    intro s a s' hrun
    obtain ⟨used, hview, hused⟩ := h.sound hrun
    exact ⟨used, hview, (hD used a).mpr hused⟩
  complete := by
    intro s used a rest hused hrest hview
    exact h.complete ((hD used a).mp hused) (hF rest hrest) hview

/-- **A token**. Nothing is recognised behind the last one. -/
theorem Source.token (hsrc : Source view next peek eof) {k : τ → Parser σ ε α}
    {D : τ → List τ → α → Prop} (h : ∀ t, Recognises view (k t) (D t) F)
    (heof : ∀ s a s', k eof s ≠ .ok (a, s')) : Recognises view (next >>= k) (Token D) F where
  sound := by
    intro s a s' hrun
    obtain ⟨t, s₁, hnext, hk⟩ := bind_ok hrun
    cases hview : view s with
    | nil =>
      obtain ⟨s₂, hnext'⟩ := hsrc.next_nil hview
      rw [hnext] at hnext'
      obtain ⟨rfl, _⟩ := Prod.mk.inj (Except.ok.inj hnext')
      exact absurd hk (heof s₁ a s')
    | cons t' ts =>
      obtain ⟨s₂, hnext', hview'⟩ := hsrc.next_cons hview
      rw [hnext] at hnext'
      obtain ⟨rfl, rfl⟩ := Prod.mk.inj (Except.ok.inj hnext')
      obtain ⟨used, hused, hD⟩ := (h t).sound hk
      refine ⟨t :: used, ?_, t, used, rfl, hD⟩
      rw [List.cons_append, ← hused, hview']
  complete := by
    rintro s used a rest ⟨t, used', rfl, hD⟩ hrest hview
    obtain ⟨s₁, hnext, hview₁⟩ := hsrc.next_cons hview
    obtain ⟨s', hk, hview'⟩ := (h t).complete hD hrest hview₁
    refine ⟨s', ?_, hview'⟩
    rw [bind_eq k hnext]
    exact hk

/-- **A choice** on the next token: it is consumed if `c` holds of it, and otherwise
    looked at by `q` again. -/
theorem Source.choice (hsrc : Source view next peek eof) {c : τ → Prop} {k p : τ → Parser σ ε α}
    {q : Parser σ ε α} {D₁ : τ → List τ → α → Prop} {D₂ : List τ → α → Prop} (hc : ¬ c eof)
    (htake : ∀ t, c t → k t = next >>= fun _ => p t) (hleave : ∀ t, ¬ c t → k t = q)
    (hp : ∀ t, c t → Recognises view (p t) (D₁ t) F) (hq : Recognises view q D₂ F)
    (hnot : ∀ used a rest, D₂ used a → F rest → NotNext c (used ++ rest)) :
    Recognises view (peek >>= k)
      (fun used a => Token (fun t used a => c t ∧ D₁ t used a) used a ∨ D₂ used a) F where
  sound := by
    intro s a s' hrun
    obtain ⟨t, s₁, hpeek, hk⟩ := bind_ok hrun
    -- at the end of the text the peeked token is `eof`, which takes the other branch
    cases hview : view s with
    | nil =>
      obtain ⟨s₂, hpeek', hview'⟩ := hsrc.peek_nil hview
      rw [hpeek] at hpeek'
      obtain ⟨rfl, rfl⟩ := Prod.mk.inj (Except.ok.inj hpeek')
      rw [hleave _ hc] at hk
      obtain ⟨used, hused, hD⟩ := hq.sound hk
      exact ⟨used, by rw [← hview', hused], .inr hD⟩
    | cons t' ts =>
      obtain ⟨s₂, hpeek', hview'⟩ := hsrc.peek_cons hview
      rw [hpeek] at hpeek'
      obtain ⟨rfl, rfl⟩ := Prod.mk.inj (Except.ok.inj hpeek')
      by_cases ht : c t
      · rw [htake t ht] at hk
        -- taking the token that was peeked gives the same token
        obtain ⟨t₁, s₂, hnext, hk⟩ := bind_ok hk
        obtain ⟨s₃, hnext', hview₃⟩ := hsrc.next_cons hview'
        rw [hnext] at hnext'
        obtain ⟨_, rfl⟩ := Prod.mk.inj (Except.ok.inj hnext')
        obtain ⟨used, hused, hD⟩ := (hp t ht).sound hk
        refine ⟨t :: used, ?_, .inl ⟨t, used, rfl, ht, hD⟩⟩
        rw [List.cons_append, ← hused, hview₃]
      · rw [hleave t ht] at hk
        obtain ⟨used, hused, hD⟩ := hq.sound hk
        exact ⟨used, by rw [← hview', hused], .inr hD⟩
  complete := by
    intro s used a rest hused hrest hview
    rcases hused with ⟨t, used', rfl, ht, hD⟩ | hD
    · obtain ⟨s₁, hpeek, hview₁⟩ := hsrc.peek_cons hview
      obtain ⟨s₂, hnext, hview₂⟩ := hsrc.next_cons hview₁
      obtain ⟨s', hrun, hview'⟩ := (hp t ht).complete hD hrest hview₂
      refine ⟨s', ?_, hview'⟩
      rw [bind_eq _ hpeek, htake t ht, bind_eq _ hnext]
      exact hrun
    -- nothing of the other branch starts with a token the first one takes
    · have hnext := hnot used a rest hD hrest
      cases hs : used ++ rest with
      | nil =>
        rw [hs] at hview
        obtain ⟨s₁, hpeek, hview₁⟩ := hsrc.peek_nil hview
        obtain ⟨s', hrun, hview'⟩ := hq.complete hD hrest (hview₁.trans hs.symm)
        refine ⟨s', ?_, hview'⟩
        rw [bind_eq _ hpeek, hleave _ hc]
        exact hrun
      | cons t ts =>
        rw [hs] at hview hnext
        obtain ⟨s₁, hpeek, hview₁⟩ := hsrc.peek_cons hview
        obtain ⟨s', hrun, hview'⟩ := hq.complete hD hrest (hview₁.trans hs.symm)
        refine ⟨s', ?_, hview'⟩
        rw [bind_eq _ hpeek, hleave t (hnext t rfl)]
        exact hrun

/-- One token that means `a`. -/
def One (R : τ → α → Prop) (used : List τ) (a : α) : Prop := ∃ t, used = [t] ∧ R t a

/-- The parser returns the one value that meets `R`, or throws if there is none. -/
def Yields (p : Parser σ ε α) (R : α → Prop) : Prop :=
  (∃ a, p = Pure.pure a ∧ ∀ b, R b ↔ b = a) ∨ (∃ e : ε, p = throw e) ∧ ∀ b, ¬ R b

theorem Yields.recognises {p : Parser σ ε α} {R : α → Prop} (h : Yields p R) :
    Recognises view p (fun used a => used = [] ∧ R a) Anything := by
  rcases h with ⟨a, rfl, hR⟩ | ⟨⟨e, rfl⟩, hR⟩
  · exact (Recognises.pure a).congr (fun _ b => and_congr_right fun _ => hR b) fun _ h => h
  · exact (Recognises.throw e).congr (fun _ b => ⟨fun h => hR b h.2, False.elim⟩) fun _ h => h

/-- **One token**, and what it means. -/
theorem Source.one (hsrc : Source view next peek eof) {k : τ → Parser σ ε α} {R : τ → α → Prop}
    (hk : ∀ t, Yields (k t) (R t)) (heof : ∀ a, ¬ R eof a) :
    Recognises view (next >>= k) (One R) Anything := by
  have hthrow : ∀ s a s', k eof s ≠ .ok (a, s') := by
    intro s a s' h
    rcases hk eof with ⟨b, _, hR⟩ | ⟨⟨e, he⟩, _⟩
    · exact heof b ((hR b).mpr rfl)
    · rw [he] at h
      cases h
  apply (hsrc.token (fun t => (hk t).recognises) hthrow).congr _ fun _ h => h
  intro used a
  constructor
  · rintro ⟨t, rfl, hR⟩
    exact ⟨t, [], rfl, rfl, hR⟩
  · rintro ⟨t, used', rfl, rfl, hR⟩
    exact ⟨t, rfl, hR⟩

/-- A token and what follows it. -/
theorem seq_one {R : τ → α → Prop} {D : α → List τ → β → Prop} {used : List τ} {b : β} :
    Seq (One R) D used b ↔ ∃ t used' a, used = t :: used' ∧ R t a ∧ D a used' b := by
  constructor
  · rintro ⟨_, used', a, rfl, ⟨t, rfl, hR⟩, hD⟩
    exact ⟨t, used', a, rfl, hR, hD⟩
  · rintro ⟨t, used', a, rfl, hR, hD⟩
    exact ⟨[t], used', a, rfl, ⟨t, rfl, hR⟩, hD⟩

end rules

/-! ## Section 2: Lists -/

/-- One or more phrases with separators between them. -/
inductive SepList (sep : τ → Prop) (D : List τ → α → Prop) : List τ → List α → Prop where
  | one {used : List τ} {a : α} : D used a → SepList sep D used [a]
  | cons {used used' : List τ} {t : τ} {a : α} {as : List α} : D used a → sep t →
      SepList sep D used' as → SepList sep D (used ++ t :: used') (a :: as)

/-- The loop over a list: `room` says how many more elements it may have. -/
def sepLoop (next peek : Parser σ ε τ) (elem : Parser σ ε α) (sep : τ → Prop) [DecidablePred sep]
    (full : ε) : (room : Nat) → List α → Parser σ ε (List α)
  | 0, _ => throw full
  | room + 1, as => do
      let a ← elem
      let t ← peek
      if sep t then do
        let _ ← next
        sepLoop next peek elem sep full room (as ++ [a])
      else pure (as ++ [a])

theorem SepList.length_pos {sep : τ → Prop} {D : List τ → α → Prop} {used : List τ} {as : List α}
    (h : SepList sep D used as) : 0 < as.length := by
  cases h with
  | one hD => simp
  | cons hD hsep htail => simp

/-- **Lists**: the loop recognises the lists there is room for, if no separator follows. -/
theorem Source.sepLoop {view : σ → List τ} {next peek : Parser σ ε τ} {eof : τ}
    (hsrc : Source view next peek eof) {elem : Parser σ ε α} {sep : τ → Prop} [DecidablePred sep]
    {D : List τ → α → Prop} {full : ε} (helem : Recognises view elem D Anything) (hsep : ¬ sep eof)
    (room : Nat) (as : List α) :
    Recognises view (Recognise.sepLoop next peek elem sep full room as)
      (fun used bs => ∃ bs', bs = as ++ bs' ∧ bs'.length ≤ room ∧ SepList sep D used bs')
      (NotNext sep) := by
  -- a round takes one element and, behind a separator, the rest of the list
  induction room generalizing as with
  | zero =>
    apply (Recognises.throw full).congr
    · intro used bs
      constructor
      · rintro ⟨bs', _, hlen, hlist⟩
        have := hlist.length_pos
        omega
      · exact False.elim
    · exact fun _ h => h
  | succ room ih =>
    -- behind an element: a separator and more of the list, or the end
    have hrest : ∀ a, Recognises view
        (peek >>= fun t => if sep t then next >>= fun _ =>
          Recognise.sepLoop next peek elem sep full room (as ++ [a]) else pure (as ++ [a]))
        (fun used bs => Token (fun t used bs => sep t ∧ ∃ bs', bs = (as ++ [a]) ++ bs' ∧
            bs'.length ≤ room ∧ SepList sep D used bs') used bs ∨ (used = [] ∧ bs = as ++ [a]))
        (NotNext sep) := by
      intro a
      apply hsrc.choice hsep
      · exact fun t ht => if_pos ht
      · exact fun t ht => if_neg ht
      · exact fun t _ => ih (as ++ [a])
      · exact (Recognises.pure _).congr (fun _ _ => Iff.rfl) fun _ _ => trivial
      · rintro used bs rest ⟨rfl, _⟩ hrest
        exact hrest
    have hloop := helem.bind hrest fun _ _ _ _ _ _ => trivial
    apply hloop.congr _ fun _ h => h
    intro used bs
    constructor
    · rintro ⟨bs', rfl, hlen, hlist⟩
      cases hlist with
      | one hD => exact ⟨used, [], _, (List.append_nil _).symm, hD, .inr ⟨rfl, rfl⟩⟩
      | @cons used₁ used₂ t a bs' hD ht hlist =>
        refine ⟨used₁, t :: used₂, a, rfl, hD, .inl ⟨t, used₂, rfl, ht, bs', ?_, ?_, hlist⟩⟩
        · rw [List.append_assoc]
          rfl
        · simpa using hlen
    · rintro ⟨used₁, used₂, a, rfl, hD, ⟨t, used', rfl, ht, bs', rfl, hlen, hlist⟩ | ⟨rfl, rfl⟩⟩
      · refine ⟨a :: bs', by rw [List.append_assoc]; rfl, ?_, .cons hD ht hlist⟩
        simpa using hlen
      · rw [List.append_nil]
        exact ⟨[a], rfl, by simp, .one hD⟩

end Recognise
