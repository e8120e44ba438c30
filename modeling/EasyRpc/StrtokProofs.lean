import Mathlib.Data.List.TakeWhile

/-! # Tokenising in place — `strtok_r` over a buffer

    A call skips the delimiters in front of it, takes the characters up to the next delimiter or
    to the end of the text, and overwrites the delimiter it stops at with the end mark; the next
    call goes on behind it.  The end of the text is the end of the buffer or an end mark inside
    it, and nothing behind that is looked at.

    `Reads` gives the loop over all tokens by the shape of its input: how the text divides into
    delimiters and tokens, and where an end mark is written.  `reads_tokens` says that it is the
    loop, and `tokens_kept_iff` that the buffer comes back as it was exactly where no token is
    followed by a delimiter. -/

namespace Strtok

variable {A : Type}

/-- The end mark of a text, and the delimiters, which it is not among. -/
structure Delims (A : Type) where
  nul : A
  isDelim : A → Bool
  nul_not_delim : isDelim nul = false

/-- What one call finds. -/
structure Found (A : Type) where
  token : Option (List A)
  -- the buffer up to the saved position, as the call leaves it
  passed : List A
  rest : List A

section Ends

variable (d : Delims A)

/-- A run of delimiters. -/
def AllDelims (l : List A) : Prop := ∀ a ∈ l, d.isDelim a = true

/-- The text is at its end. -/
def Ended (l : List A) : Prop := l = [] ∨ ∃ rest, l = d.nul :: rest

end Ends

/-- What is dropped ends before the first that is kept. -/
theorem dropWhile_head {p : A → Bool} {l rest : List A} {a : A}
    (h : l.dropWhile p = a :: rest) : p a = false := by
  have hhead := List.head?_dropWhile_not p l
  rw [h] at hhead
  exact hhead

/-- What follows a maximal run of `p` does not change under skipping the run. -/
theorem dropWhile_run {p : A → Bool} {l rest : List A} (hl : ∀ a ∈ l, p a = true)
    (hrest : ∀ a ∈ rest.head?, p a = false) : (l ++ rest).dropWhile p = rest := by
  rw [List.dropWhile_append_of_pos hl]
  cases rest with
  | nil => rfl
  | cons a rest => exact List.dropWhile_cons_of_neg (by rw [hrest a rfl]; nofun)

theorem takeWhile_run {p : A → Bool} {l rest : List A} (hl : ∀ a ∈ l, p a = true)
    (hrest : ∀ a ∈ rest.head?, p a = false) : (l ++ rest).takeWhile p = l := by
  rw [List.takeWhile_append_of_pos hl]
  cases rest with
  | nil => exact List.append_nil l
  | cons a rest =>
      rw [List.takeWhile_cons_of_neg (by rw [hrest a rfl]; nofun), List.append_nil]

theorem Ended.head_not_delim {d : Delims A} {rest : List A} (h : Ended d rest) :
    ∀ a ∈ rest.head?, d.isDelim a = false := by
  rcases h with rfl | ⟨rest, rfl⟩
  · exact nofun
  · rintro a ⟨⟩
    exact d.nul_not_delim

theorem AllDelims.ne_nul {d : Delims A} {l : List A} (h : AllDelims d l) :
    ∀ a ∈ l, a ≠ d.nul := by
  rintro a ha rfl
  have hdelim := h _ ha
  rw [d.nul_not_delim] at hdelim
  exact nomatch hdelim

variable [DecidableEq A] (d : Delims A)

/-- The characters of a token: neither delimiter nor terminator. -/
def inToken (a : A) : Bool := !d.isDelim a && a != d.nul

/-- One call, from the saved position on. -/
def strtok (s : List A) : Found A :=
  let delims := s.takeWhile d.isDelim
  let s := s.dropWhile d.isDelim
  let token := s.takeWhile (inToken d)
  if token = [] then ⟨none, delims, s⟩
  else
    match s.dropWhile (inToken d) with
    | [] => ⟨some token, delims ++ token, []⟩
    | a :: rest =>
        -- at an end mark the saved position stays there
        if a = d.nul then ⟨some token, delims ++ token, a :: rest⟩
        else ⟨some token, delims ++ token ++ [d.nul], rest⟩

/-! ## One call by the shape of its input -/

/-- A token: a run of its characters, and not an empty one. -/
structure IsToken (l : List A) : Prop where
  nonempty : l ≠ []
  inside : ∀ a ∈ l, inToken d a = true

/-- **WHAT ONE CALL FINDS**: the end, a token before the end, or a token and the delimiter after
    it, which is overwritten. -/
inductive Call : List A → Found A → Prop where
  | ends (delims rest : List A) : AllDelims d delims → Ended d rest →
      Call (delims ++ rest) ⟨none, delims, rest⟩
  | last (delims token rest : List A) : AllDelims d delims → IsToken d token → Ended d rest →
      Call (delims ++ (token ++ rest)) ⟨some token, delims ++ token, rest⟩
  | cuts (delims token : List A) (a : A) (rest : List A) : AllDelims d delims →
      IsToken d token → d.isDelim a = true →
      Call (delims ++ (token ++ a :: rest)) ⟨some token, delims ++ token ++ [d.nul], rest⟩

variable {d}

theorem inToken_of_isDelim {a : A} (h : d.isDelim a = true) : inToken d a = false := by
  rw [inToken, h]
  rfl

theorem inToken_nul : inToken d d.nul = false := by
  rw [inToken, bne_self_eq_false, Bool.and_false]

theorem isDelim_of_inToken {a : A} (h : inToken d a = true) : d.isDelim a = false := by
  cases hd : d.isDelim a with
  | false => rfl
  | true => exact absurd (inToken_of_isDelim hd) (by rw [h]; nofun)

/-- What stops a token. -/
theorem delim_or_nul {a : A} (h : inToken d a = false) : d.isDelim a = true ∨ a = d.nul := by
  rcases Bool.and_eq_false_iff.mp h with hdelim | hnul
  · exact Or.inl ((Bool.not_eq_eq_eq_not.mp hdelim).trans rfl)
  · exact Or.inr (not_not.mp (mt bne_iff_ne.mpr (by rw [hnul]; nofun)))

theorem Ended.head_not_token {rest : List A} (h : Ended d rest) :
    ∀ a ∈ rest.head?, inToken d a = false := by
  rcases h with rfl | ⟨rest, rfl⟩
  · exact nofun
  · rintro a ⟨⟩
    exact inToken_nul

theorem IsToken.head_not_delim {token : List A} (h : IsToken d token) (rest : List A) :
    ∀ a ∈ (token ++ rest).head?, d.isDelim a = false := by
  cases token with
  | nil => exact absurd rfl h.nonempty
  | cons a token =>
      rintro b ⟨⟩
      exact isDelim_of_inToken (h.inside a List.mem_cons_self)

/-- **THE CALL IS AS DESCRIBED**: the three cases cover every buffer. -/
theorem strtok_call (s : List A) : Call d s (strtok d s) := by
  have hs : s = s.takeWhile d.isDelim ++ s.dropWhile d.isDelim :=
    List.takeWhile_append_dropWhile.symm
  have hdelims : AllDelims d (s.takeWhile d.isDelim) := fun _ ha => List.mem_takeWhile_imp ha
  have ht : s.dropWhile d.isDelim = (s.dropWhile d.isDelim).takeWhile (inToken d)
      ++ (s.dropWhile d.isDelim).dropWhile (inToken d) :=
    List.takeWhile_append_dropWhile.symm
  unfold strtok
  dsimp only
  split
  · rename_i hnil
    -- the text behind the delimiters starts with no character of a token
    have hended : Ended d (s.dropWhile d.isDelim) := by
      rw [hnil, List.nil_append] at ht
      cases hrest : s.dropWhile d.isDelim with
      | nil => exact Or.inl rfl
      | cons a rest =>
          have hstop := dropWhile_head (ht.symm.trans hrest)
          rcases delim_or_nul hstop with hdelim | rfl
          · rw [dropWhile_head hrest] at hdelim
            exact nomatch hdelim
          · exact Or.inr ⟨rest, rfl⟩
    conv => arg 2; rw [hs]
    exact .ends _ _ hdelims hended
  · rename_i hne
    have htoken : IsToken d ((s.dropWhile d.isDelim).takeWhile (inToken d)) :=
      ⟨hne, fun _ ha => List.mem_takeWhile_imp ha⟩
    conv => arg 2; rw [hs, ht]
    cases hrest : (s.dropWhile d.isDelim).dropWhile (inToken d) with
    | nil => exact .last _ _ _ hdelims htoken (Or.inl rfl)
    | cons a rest =>
        dsimp only
        split
        · rename_i hnul
          subst hnul
          exact .last _ _ _ hdelims htoken (Or.inr ⟨rest, rfl⟩)
        · rename_i hnul
          rcases delim_or_nul (dropWhile_head hrest) with hdelim | hnul'
          · exact .cuts _ _ _ _ hdelims htoken hdelim
          · exact absurd hnul' hnul

/-- The shape of the input decides what a call finds. -/
theorem Call.strtok_eq {s : List A} {f : Found A} (h : Call d s f) : strtok d s = f := by
  unfold strtok
  cases h with
  | ends delims rest hdelims hended =>
      have htake := takeWhile_run hdelims hended.head_not_delim
      have hdrop := dropWhile_run hdelims hended.head_not_delim
      have hnone := takeWhile_run (l := []) nofun hended.head_not_token
      rw [List.nil_append] at hnone
      simp only [htake, hdrop, hnone, if_pos]
  | last delims token rest hdelims htoken hended =>
      have htake := takeWhile_run hdelims (htoken.head_not_delim rest)
      have hdrop := dropWhile_run hdelims (htoken.head_not_delim rest)
      have htake' := takeWhile_run htoken.inside hended.head_not_token
      have hdrop' := dropWhile_run htoken.inside hended.head_not_token
      simp only [htake, hdrop, htake', hdrop', if_neg htoken.nonempty]
      rcases hended with rfl | ⟨rest, rfl⟩
      · rfl
      · exact if_pos rfl
  | cuts delims token a rest hdelims htoken hdelim =>
      have htake := takeWhile_run hdelims (htoken.head_not_delim (a :: rest))
      have hdrop := dropWhile_run hdelims (htoken.head_not_delim (a :: rest))
      have hstop : ∀ b ∈ (a :: rest).head?, inToken d b = false := by
        rintro b ⟨⟩
        exact inToken_of_isDelim hdelim
      have htake' := takeWhile_run htoken.inside hstop
      have hdrop' := dropWhile_run htoken.inside hstop
      have hnul : a ≠ d.nul := by
        rintro rfl
        rw [d.nul_not_delim] at hdelim
        exact nomatch hdelim
      simp only [htake, hdrop, htake', hdrop', if_neg htoken.nonempty, if_neg hnul]

/-- A call that finds a token goes on behind it. -/
theorem strtok_rest_lt {s token : List A} (h : (strtok d s).token = some token) :
    (strtok d s).rest.length < s.length := by
  have hcall := strtok_call (d := d) s
  generalize strtok d s = f at h hcall
  cases hcall with
  | ends => exact nomatch h
  | last delims token rest _ htoken _ =>
      have hpos := List.length_pos_iff.mpr htoken.nonempty
      rw [List.length_append, List.length_append]
      show rest.length < _
      omega
  | cuts delims token a rest =>
      rw [List.length_append, List.length_append, List.length_cons]
      show rest.length < _
      omega

/-! ## The loop over all tokens -/

variable (d)

/-- The tokens, and the buffer as the calls leave it. -/
def tokens (s : List A) : List (List A) × List A :=
  match _h : (strtok d s).token with
  | none => ([], (strtok d s).passed ++ (strtok d s).rest)
  | some token =>
      let more := tokens (strtok d s).rest
      (token :: more.1, (strtok d s).passed ++ more.2)
termination_by s.length
decreasing_by exact strtok_rest_lt _h

/-- How a text divides into tokens, and what the loop leaves of it. -/
inductive Reads : List A → List (List A) → List A → Prop where
  | ends (delims rest : List A) : AllDelims d delims → Ended d rest →
      Reads (delims ++ rest) [] (delims ++ rest)
  | last (delims token rest : List A) : AllDelims d delims → IsToken d token → Ended d rest →
      Reads (delims ++ (token ++ rest)) [token] (delims ++ (token ++ rest))
  | cuts (delims token : List A) (a : A) (rest left : List A) (more : List (List A)) :
      AllDelims d delims → IsToken d token → d.isDelim a = true → Reads rest more left →
      Reads (delims ++ (token ++ a :: rest)) (token :: more)
        (delims ++ (token ++ d.nul :: left))

variable {d}

theorem tokens_none {s : List A} (h : (strtok d s).token = none) :
    tokens d s = ([], (strtok d s).passed ++ (strtok d s).rest) := by
  rw [tokens]
  split
  · rfl
  · rename_i h'
    rw [h] at h'
    exact nomatch h'

theorem tokens_some {s token : List A} (h : (strtok d s).token = some token) :
    tokens d s = (token :: (tokens d (strtok d s).rest).1,
      (strtok d s).passed ++ (tokens d (strtok d s).rest).2) := by
  rw [tokens]
  split
  · rename_i h'
    rw [h] at h'
    exact nomatch h'
  · rename_i h'
    rw [h] at h'
    cases h'
    rfl

theorem tokens_ended {s : List A} (h : Ended d s) : tokens d s = ([], s) := by
  have hcall := (Call.ends [] s nofun h).strtok_eq
  rw [List.nil_append] at hcall
  rw [tokens_none (by rw [hcall]), hcall]
  rfl

/-- What the loop returns is what the relation describes. -/
theorem Reads.tokens_eq {s left : List A} {more : List (List A)} (h : Reads d s more left) :
    tokens d s = (more, left) := by
  induction h with
  | ends delims rest hdelims hended =>
      have hcall := (Call.ends delims rest hdelims hended).strtok_eq
      rw [tokens_none (by rw [hcall]), hcall]
  | last delims token rest hdelims htoken hended =>
      have hcall := (Call.last delims token rest hdelims htoken hended).strtok_eq
      rw [tokens_some (by rw [hcall]), hcall]
      show (token :: (tokens d rest).1, delims ++ token ++ (tokens d rest).2) = _
      rw [tokens_ended hended, List.append_assoc]
  | cuts delims token a rest left more hdelims htoken hdelim _ ih =>
      have hcall := (Call.cuts delims token a rest hdelims htoken hdelim).strtok_eq
      rw [tokens_some (by rw [hcall]), hcall]
      show (token :: (tokens d rest).1, delims ++ token ++ [d.nul] ++ (tokens d rest).2) = _
      rw [ih, List.append_assoc, List.append_assoc, List.singleton_append]

/-- **THE LOOP BY SHAPE**. -/
theorem reads_tokens (s : List A) : Reads d s (tokens d s).1 (tokens d s).2 := by
  have hcall := strtok_call (d := d) s
  generalize hf : strtok d s = f at hcall
  cases hcall with
  | ends delims rest hdelims hended =>
      rw [(Reads.ends delims rest hdelims hended).tokens_eq]
      exact .ends delims rest hdelims hended
  | last delims token rest hdelims htoken hended =>
      rw [(Reads.last delims token rest hdelims htoken hended).tokens_eq]
      exact .last delims token rest hdelims htoken hended
  | cuts delims token a rest hdelims htoken hdelim =>
      have hrest := Reads.cuts delims token a rest _ _ hdelims htoken hdelim (reads_tokens rest)
      rw [hrest.tokens_eq]
      exact hrest
termination_by s.length
decreasing_by
  rw [List.length_append, List.length_append, List.length_cons]
  omega

/-- The delimiters are overwritten in place: the length stays. -/
theorem Reads.length_eq {s left : List A} {more : List (List A)} (h : Reads d s more left) :
    left.length = s.length := by
  induction h with
  | ends | last => rfl
  | cuts delims token a rest left more _ _ _ _ ih =>
      simp only [List.length_append, List.length_cons, ih]

theorem tokens_length (s : List A) : (tokens d s).2.length = s.length :=
  (reads_tokens s).length_eq

/-- A second loop over the same buffer finds no more than the first token. -/
theorem tokens_again (s : List A) : (tokens d (tokens d s).2).1 = (tokens d s).1.take 1 := by
  have hreads := reads_tokens (d := d) s
  generalize tokens d s = r at hreads
  obtain ⟨more, left⟩ := r
  show (tokens d left).1 = more.take 1
  cases hreads with
  | ends delims rest hdelims hended =>
      exact congrArg Prod.fst (Reads.ends delims rest hdelims hended).tokens_eq
  | last delims token rest hdelims htoken hended =>
      exact congrArg Prod.fst (Reads.last delims token rest hdelims htoken hended).tokens_eq
  | cuts delims token a rest left more hdelims htoken =>
      have hlast := Reads.last delims token _ hdelims htoken (Or.inr ⟨left, rfl⟩)
      exact congrArg Prod.fst hlast.tokens_eq

/-- Two tokens, with what stands around them. -/
inductive Pair (d : Delims A) : List A → List A → List A → Prop where
  | mk (before fst between snd after rest : List A) : AllDelims d before → IsToken d fst →
      between ≠ [] → AllDelims d between → IsToken d snd → AllDelims d after → Ended d rest →
      Pair d (before ++ (fst ++ (between ++ (snd ++ (after ++ rest))))) fst snd

theorem tokens_pair_iff {s fst snd : List A} :
    (tokens d s).1 = [fst, snd] ↔ Pair d s fst snd := by
  constructor
  · intro h
    have hreads := reads_tokens (d := d) s
    rw [h] at hreads
    generalize (tokens d s).2 = left at hreads
    cases hreads with
    | cuts before _ a rest left _ hbefore hfst ha htail =>
        cases htail with
        | last delims _ rest hdelims hsnd hended =>
            exact .mk before fst (a :: delims) snd [] rest hbefore hfst nofun
              (List.forall_mem_cons.mpr ⟨ha, hdelims⟩) hsnd nofun hended
        | cuts delims _ b rest left _ hdelims hsnd hb hend =>
            cases hend with
            | ends after rest hafter hended =>
                exact .mk before fst (a :: delims) snd (b :: after) rest hbefore hfst nofun
                  (List.forall_mem_cons.mpr ⟨ha, hdelims⟩) hsnd
                  (List.forall_mem_cons.mpr ⟨hb, hafter⟩) hended
  · rintro ⟨before, fst, between, snd, after, rest, hbefore, hfst, hne, hbetween, hsnd, hafter,
      hended⟩
    cases between with
    | nil => exact absurd rfl hne
    | cons a delims =>
        obtain ⟨ha, hdelims⟩ := List.forall_mem_cons.mp hbetween
        cases after with
        | nil =>
            have htail := Reads.last delims snd rest hdelims hsnd hended
            exact congrArg Prod.fst
              (Reads.cuts before fst a _ _ _ hbefore hfst ha htail).tokens_eq
        | cons b after =>
            obtain ⟨hb, hafter⟩ := List.forall_mem_cons.mp hafter
            have htail := Reads.cuts delims snd b _ _ _ hdelims hsnd hb
              (Reads.ends after rest hafter hended)
            exact congrArg Prod.fst
              (Reads.cuts before fst a _ _ _ hbefore hfst ha htail).tokens_eq

variable (d) in

/-- The text in front of the first end mark. -/
def text (s : List A) : List A := s.takeWhile (· != d.nul)

variable (d) in

/-- No delimiter comes after a character that is not one. -/
def Uncut (s : List A) : Prop := ∀ a ∈ (text d s).dropWhile d.isDelim, d.isDelim a = false

theorem text_append {l rest : List A} (h : ∀ a ∈ l, a ≠ d.nul) :
    text d (l ++ rest) = l ++ text d rest :=
  List.takeWhile_append_of_pos fun a ha => bne_iff_ne.mpr (h a ha)

theorem text_ended {s : List A} (h : Ended d s) : text d s = [] := by
  rcases h with rfl | ⟨rest, rfl⟩
  · rfl
  · exact List.takeWhile_cons_of_neg (by rw [bne_self_eq_false]; nofun)

theorem IsToken.ne_nul {l : List A} (h : IsToken d l) : ∀ a ∈ l, a ≠ d.nul := by
  rintro a ha rfl
  have hin := h.inside _ ha
  rw [inToken_nul] at hin
  exact nomatch hin

/-- **THE BUFFER IS KEPT** exactly where no delimiter follows a token. -/
theorem tokens_kept_iff (s : List A) : (tokens d s).2 = s ↔ Uncut d s := by
  have hreads := reads_tokens (d := d) s
  generalize tokens d s = r at hreads
  obtain ⟨more, left⟩ := r
  show left = s ↔ _
  cases hreads with
  | ends delims rest hdelims hended =>
      refine iff_of_true rfl ?_
      rw [Uncut, text_append hdelims.ne_nul, text_ended hended,
        List.dropWhile_append_of_pos hdelims]
      exact nofun
  | last delims token rest hdelims htoken hended =>
      refine iff_of_true rfl ?_
      rw [Uncut, text_append hdelims.ne_nul, text_append htoken.ne_nul, text_ended hended,
        dropWhile_run hdelims (htoken.head_not_delim _), List.append_nil]
      exact fun a ha => isDelim_of_inToken (htoken.inside a ha)
  | cuts delims token a rest left more hdelims htoken hdelim =>
      have hnul : a ≠ d.nul := AllDelims.ne_nul (l := [a])
        (fun b hb => (List.mem_singleton.mp hb).symm ▸ hdelim) a (List.mem_singleton_self a)
      refine iff_of_false ?_ ?_
      · intro h
        have hcons := List.append_cancel_left (List.append_cancel_left h)
        injection hcons with hhead
        exact hnul hhead.symm
      · intro h
        have hmem : a ∈ (text d (delims ++ (token ++ a :: rest))).dropWhile d.isDelim := by
          rw [text_append hdelims.ne_nul, text_append htoken.ne_nul,
            dropWhile_run hdelims (htoken.head_not_delim _),
            show a :: rest = [a] ++ rest from rfl,
            text_append (List.forall_mem_singleton.mpr hnul)]
          exact List.mem_append_right _ List.mem_cons_self
        rw [h a hmem] at hdelim
        exact nomatch hdelim

end Strtok
