import DocMark.DocumentStart

/-!
# Checking a stream token by token

A window shows four tokens, and the rule reads two of them: the token that is checked and the one
before it.  So what is said about a token depends on its left neighbour alone, and a stream can be
checked piece by piece.

Main statements:

* `getElem?_windows` — the window at an index shows the tokens around that index;
* `mem_problemsAt_iff` — all that can be said about a token where markers are required;
* `checkStream_cut` — a stream that is cut at a token is checked as its two pieces are, and neither
  side of the cut matters to the other.
-/

namespace DocMark

/-- The token before an index of a stream that follows `prev`. -/
def tokenBefore (prev : Option Token) (tokens : List Token) : Nat → Option Token
  | 0 => prev
  | i + 1 => tokens[i]?

theorem getElem?_windowsAfter (prev : Option Token) (ts : List Token) (i : Nat) :
    (windowsAfter prev ts)[i]? =
      ts[i]?.map fun t => ⟨tokenBefore prev ts i, t, ts[i + 1]?, ts[i + 2]?⟩ := by
  induction ts generalizing prev i with
  | nil => rfl
  | cons t ts ih =>
    cases i with
    | zero => rfl
    | succ i =>
      have hbefore : tokenBefore (some t) ts i = (t :: ts)[i]? := by
        cases i <;> rfl
      rw [windowsAfter, List.getElem?_cons_succ, ih (some t) i, hbefore]
      rfl

/-- The window at an index shows the tokens around that index. -/
theorem getElem?_windows (ts : List Token) (i : Nat) :
    (windows ts)[i]? =
      ts[i]?.map fun t => ⟨tokenBefore none ts i, t, ts[i + 1]?, ts[i + 2]?⟩ :=
  getElem?_windowsAfter none ts i

namespace DocumentStart

/-- What the rule has to say about the token at an index; nothing if there is no token. -/
def problemsAt (o : Options) (tokens : List Token) (i : Nat) : List Problem :=
  (checkStream o tokens)[i]?.getD []

/-- The tokens to come do not matter. -/
theorem check_congr {o : Options} {w w' : Window} (hprev : w.prev = w'.prev)
    (htoken : w.token = w'.token) : check o w = check o w' := by
  unfold check
  rw [hprev, htoken]

/-! ### The token at an index -/

theorem getElem?_checkStream (o : Options) (tokens : List Token) (i : Nat) :
    (checkStream o tokens)[i]? =
      tokens[i]?.map fun t => check o ⟨tokenBefore none tokens i, t, none, none⟩ := by
  rw [checkStream, List.getElem?_map, getElem?_windows, Option.map_map]
  rfl

theorem problemsAt_succ {o : Options} (hpresent : o.present = true) {tokens : List Token} {i : Nat}
    {prev t : Token} (hprev : tokens[i]? = some prev) (ht : tokens[i + 1]? = some t) :
    problemsAt o tokens (i + 1) = checkMissing prev t ++ checkEmptyLines o prev t := by
  rw [problemsAt, getElem?_checkStream, ht, tokenBefore, hprev]
  show check o ⟨some prev, t, none, none⟩ = _
  rw [check, if_pos hpresent]

/-- Where markers are required, nothing is said about the first token. -/
theorem problemsAt_zero {o : Options} (hpresent : o.present = true) (tokens : List Token) :
    problemsAt o tokens 0 = [] := by
  rw [problemsAt, getElem?_checkStream]
  cases tokens[0]? with
  | none => rfl
  | some t =>
    show check o ⟨none, t, none, none⟩ = []
    rw [check, if_pos hpresent]

theorem problemsAt_of_none {o : Options} {tokens : List Token} {i : Nat} (h : tokens[i]? = none) :
    problemsAt o tokens i = [] := by
  rw [problemsAt, getElem?_checkStream, h]
  rfl

/-- Where markers are required, a token about which something is said has one before it. -/
theorem exists_of_problemsAt_ne_nil {o : Options} (hpresent : o.present = true)
    {tokens : List Token} {i : Nat} (h : problemsAt o tokens i ≠ []) :
    ∃ j prev t, i = j + 1 ∧ tokens[j]? = some prev ∧ tokens[j + 1]? = some t := by
  cases i with
  | zero => exact absurd (problemsAt_zero hpresent tokens) h
  | succ j =>
    cases ht : tokens[j + 1]? with
    | none => exact absurd (problemsAt_of_none ht) h
    | some t =>
      obtain ⟨hlt, -⟩ := List.getElem?_eq_some_iff.mp ht
      exact ⟨j, tokens[j], t, rfl, List.getElem?_eq_getElem (by omega), ht⟩

/-- Where markers are required, all that is said about a token is that it should have been one, or
that it stands at the wrong distance from one, and the token before it decides. -/
theorem mem_problemsAt_iff {o : Options} (hpresent : o.present = true) {tokens : List Token}
    {i : Nat} {p : Problem} :
    p ∈ problemsAt o tokens i ↔
      ∃ j prev t, i = j + 1 ∧ tokens[j]? = some prev ∧ tokens[j + 1]? = some t ∧
        (p ∈ checkMissing prev t ∨ p ∈ checkEmptyLines o prev t) := by
  constructor
  · intro hp
    obtain ⟨j, prev, t, rfl, hprev, ht⟩ :=
      exists_of_problemsAt_ne_nil hpresent (List.ne_nil_of_mem hp)
    rw [problemsAt_succ hpresent hprev ht, List.mem_append] at hp
    exact ⟨j, prev, t, rfl, hprev, ht, hp⟩
  · rintro ⟨j, prev, t, rfl, hprev, ht, hp⟩
    rw [problemsAt_succ hpresent hprev ht, List.mem_append]
    exact hp

/-! ### Cutting a stream -/

theorem map_check_windowsAfter_cut (o : Options) (prev : Option Token) (xs : List Token)
    (t : Token) (ys : List Token) :
    (windowsAfter prev (xs ++ [t] ++ ys)).map (check o) =
      (windowsAfter prev (xs ++ [t])).map (check o)
        ++ (windowsAfter (some t) ys).map (check o) := by
  induction xs generalizing prev with
  | nil => rfl
  | cons x xs ih =>
    simp only [List.cons_append, windowsAfter, List.map_cons, ih (some x)]
    exact congrArg (· :: _) (check_congr rfl rfl)

/-- The token at the cut is checked in the first piece, and opens the second one as the left neighbour
of the token behind it. -/
theorem checkStream_append (o : Options) (xs : List Token) (t : Token) (ys : List Token) :
    checkStream o (xs ++ [t] ++ ys) =
      checkStream o (xs ++ [t]) ++ (checkStream o ([t] ++ ys)).tail :=
  map_check_windowsAfter_cut o none xs t ys

theorem length_checkStream (o : Options) (tokens : List Token) :
    (checkStream o tokens).length = tokens.length := by
  have hlength := congrArg List.length (map_token_windows tokens)
  rw [List.length_map] at hlength
  rw [checkStream, List.length_map, hlength]

/-- A stream that is cut at a token is checked as its pieces are, where the token at the cut belongs
to both.  Nothing behind the cut changes what is said up to it, and nothing before it what is said
behind it. -/
theorem checkStream_cut (o : Options) (xs : List Token) (t : Token) (ys : List Token) :
    checkStream o (xs ++ [t] ++ ys) =
      checkStream o (xs ++ [t]) ++ (checkStream o ([t] ++ ys)).tail
    ∧ (∀ ys', (checkStream o (xs ++ [t] ++ ys)).take (xs ++ [t]).length =
        (checkStream o (xs ++ [t] ++ ys')).take (xs ++ [t]).length)
    ∧ ∀ xs', (checkStream o (xs ++ [t] ++ ys)).drop (xs ++ [t]).length =
        (checkStream o (xs' ++ [t] ++ ys)).drop (xs' ++ [t]).length := by
  have htake (zs : List Token) :
      (checkStream o (xs ++ [t] ++ zs)).take (xs ++ [t]).length = checkStream o (xs ++ [t]) := by
    rw [checkStream_append, ← length_checkStream o (xs ++ [t]), List.take_left]
  have hdrop (zs : List Token) :
      (checkStream o (zs ++ [t] ++ ys)).drop (zs ++ [t]).length =
        (checkStream o ([t] ++ ys)).tail := by
    rw [checkStream_append, ← length_checkStream o (zs ++ [t]), List.drop_left]
  refine ⟨checkStream_append o xs t ys, fun ys' => ?_, fun xs' => ?_⟩
  · rw [htake, htake]
  · rw [hdrop, hdrop]

end DocumentStart

end DocMark
