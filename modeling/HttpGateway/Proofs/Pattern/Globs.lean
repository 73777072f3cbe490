import HttpGateway.Pattern.Glob
import Mathlib.Data.List.Forall2

/-!
# What a glob matches

A glob stands for the texts that come about when each of its asterisks is replaced by some run of
bytes and each question mark by one byte. The matcher accepts no others, and it accepts all of them
that are free of asterisks. An asterisk of the glob that meets one of the text is taken for that
byte alone, so that other texts may be refused.

The matcher comes back to the last asterisk only. This is enough: whatever an earlier one could gain
by taking more bytes, the last one can take instead (`exists_suffix_of_append`).
-/

namespace HttpGateway.Glob

/-! ### Meanings -/

/-- What a byte of a glob may be replaced by. -/
inductive Stands : UInt8 → Bytes → Prop
  | self (g : UInt8) : Stands g [g]
  | byte (c : UInt8) : Stands anyByte [c]
  | run (r : Bytes) : Stands anyRun r

/-- The text comes about by replacing the bytes of the glob. -/
def Denotes (glob text : Bytes) : Prop :=
  ∃ runs, List.Forall₂ Stands glob runs ∧ runs.flatten = text

/-- The byte of the glob is taken for the byte of the text before it is taken for anything else. -/
def Same (g c : UInt8) : Prop := g = anyByte ∨ g = c

/-- The text comes about by replacing the bytes of the glob, where an asterisk that meets an
asterisk is replaced by that byte alone. -/
inductive Spells : Bytes → Bytes → Prop
  | nil : Spells [] []
  | byte {g c glob text} (h : Same g c) (rest : Spells glob text) : Spells (g :: glob) (c :: text)
  | run {glob text} (r : Bytes) (h : (r ++ text).head? ≠ some anyRun) (rest : Spells glob text) :
      Spells (anyRun :: glob) (r ++ text)

/-- The byte of the text can be taken neither by the next byte of the glob nor by an asterisk. -/
def Stuck (glob : Bytes) (c : UInt8) : Prop := ∀ g ∈ glob.head?, ¬Same g c ∧ g ≠ anyRun

/-- The walk without a bound on its steps: from this place it comes to an end with this answer. -/
inductive Ends : (glob text : Bytes) → (back : Option (Bytes × Bytes)) → (answer : Bool) → Prop
  | done {glob back} : Ends glob [] back (glob.all (· = anyRun))
  | same {g c glob text back answer} (h : Same g c) (next : Ends glob text back answer) :
      Ends (g :: glob) (c :: text) back answer
  | star {c glob text back answer} (h : c ≠ anyRun)
      (next : Ends glob (c :: text) (some (glob, c :: text)) answer) :
      Ends (anyRun :: glob) (c :: text) back answer
  | again {c c' glob text glob' text' answer} (h : Stuck glob c)
      (next : Ends glob' text' (some (glob', text')) answer) :
      Ends glob (c :: text) (some (glob', c' :: text')) answer
  | failed {c glob text} (h : Stuck glob c) : Ends glob (c :: text) none false

variable {g c : UInt8} {glob text rest : Bytes} {back : Option (Bytes × Bytes)} {answer : Bool}

theorem stands_of_same (h : Same g c) : Stands g [c] := by
  rcases h with rfl | rfl
  · exact .byte c
  · exact .self g

theorem Denotes.cons {run : Bytes} (h : Denotes glob text) (hrun : Stands g run) :
    Denotes (g :: glob) (run ++ text) := by
  obtain ⟨runs, hruns, rfl⟩ := h
  exact ⟨run :: runs, .cons hrun hruns, rfl⟩

theorem Spells.denotes (h : Spells glob text) : Denotes glob text := by
  induction h with
  | nil => exact ⟨[], .nil, rfl⟩
  | byte h _ ih => exact ih.cons (stands_of_same h)
  | run r _ _ ih => exact ih.cons (.run r)

/-- In a text without asterisks nothing is met that the matcher would take wrongly. -/
theorem Denotes.spells (h : Denotes glob text) (htext : anyRun ∉ text) : Spells glob text := by
  obtain ⟨runs, hruns, rfl⟩ := h
  induction hruns with
  | nil => exact .nil
  | @cons g run glob runs hrun _ ih =>
      rw [List.flatten_cons] at htext ⊢
      have hrest : Spells glob runs.flatten := ih fun h => htext (List.mem_append_right run h)
      cases hrun with
      | self => exact .byte (.inr rfl) hrest
      | byte c => exact .byte (.inl rfl) hrest
      | run => exact .run run (fun h => htext (List.mem_of_mem_head? h)) hrest

/-! ### Reading a text byte by byte -/

theorem spells_nil_iff : Spells glob [] ↔ glob.all (· = anyRun) = true := by
  induction glob with
  | nil => exact iff_of_true .nil rfl
  | cons g glob ih =>
      rw [List.all_cons, Bool.and_eq_true, decide_eq_true_iff, ← ih]
      constructor
      · intro h
        generalize hnil : ([] : Bytes) = text at h
        cases h with
        | byte => cases hnil
        | run r _ rest =>
            obtain ⟨rfl, rfl⟩ := List.append_eq_nil_iff.mp hnil.symm
            exact ⟨rfl, rest⟩
      · rintro ⟨rfl, rest⟩
        exact .run [] nofun rest

theorem spells_cons_iff (h : Same g c) : Spells (g :: glob) (c :: text) ↔ Spells glob text := by
  refine ⟨fun hspells => ?_, .byte h⟩
  generalize hall : c :: text = all at hspells
  cases hspells with
  | byte _ rest =>
      obtain ⟨-, rfl⟩ := List.cons.inj hall
      exact rest
  | run r hmeets _ =>
      -- The asterisk would have to meet another byte than `c`, for which it is taken.
      rw [← hall] at hmeets
      rcases h with h | rfl
      · exact absurd h (by decide)
      · exact absurd rfl hmeets

/-- An asterisk that does not meet another one may take any number of bytes. -/
theorem spells_run_iff (h : text.head? ≠ some anyRun) :
    Spells (anyRun :: glob) text ↔ ∃ rest, rest <:+ text ∧ Spells glob rest := by
  constructor
  · intro hspells
    generalize hstar : anyRun :: glob = all at hspells
    cases hspells with
    | nil => cases hstar
    | byte hsame =>
        obtain ⟨rfl, -⟩ := List.cons.inj hstar
        rcases hsame with hsame | rfl
        · exact absurd hsame (by decide)
        · exact absurd rfl h
    | run r _ rest =>
        obtain ⟨-, rfl⟩ := List.cons.inj hstar
        exact ⟨_, List.suffix_append r _, rest⟩
  · rintro ⟨rest, ⟨r, rfl⟩, hrest⟩
    exact .run r h hrest

theorem not_spells_of_stuck (h : Stuck glob c) : ¬Spells glob (c :: text) := by
  intro hspells
  generalize hall : c :: text = all at hspells
  cases hspells with
  | nil => cases hall
  | byte hsame =>
      obtain ⟨rfl, -⟩ := List.cons.inj hall
      exact (h _ rfl).1 hsame
  | run => exact (h _ rfl).2 rfl

theorem Spells.exists_suffix (h : Spells (g :: glob) text) :
    ∃ rest, rest <:+ text ∧ Spells glob rest := by
  cases h with
  | byte _ rest => exact ⟨_, List.suffix_cons .., rest⟩
  | run r _ rest => exact ⟨_, List.suffix_append .., rest⟩

/-- A part of the glob that has been taken for as many bytes of the text takes at least these bytes
if it starts later. So what is behind it finds its place further on. -/
theorem exists_suffix_of_append {seen read : Bytes} (hsame : List.Forall₂ Same seen read)
    (hrest : rest <:+ read ++ text) (h : Spells (seen ++ glob) rest) :
    ∃ rest, rest <:+ text ∧ Spells glob rest := by
  induction hsame generalizing rest with
  | nil => exact ⟨rest, hrest, h⟩
  | cons hgc _ ih =>
      rcases List.suffix_cons_iff.mp hrest with rfl | hlater
      · exact ih (List.suffix_refl _) ((spells_cons_iff hgc).mp h)
      · obtain ⟨rest', hrest', h'⟩ := h.exists_suffix
        exact ih (hrest'.trans hlater) h'

/-! ### The walk -/

/-- Since the last asterisk, bytes of the glob have been taken for as many bytes of the text. -/
def Behind (glob text : Bytes) : Option (Bytes × Bytes) → Prop
  | none => True
  | some (glob', text') => ∃ seen read, List.Forall₂ Same seen read ∧
      glob' = seen ++ glob ∧ text' = read ++ text

theorem behind_self (glob text : Bytes) : Behind glob text (some (glob, text)) :=
  ⟨[], [], .nil, rfl, rfl⟩

theorem Behind.same (h : Behind (g :: glob) (c :: text) back) (hsame : Same g c) :
    Behind glob text back := by
  cases back with
  | none => trivial
  | some b =>
      obtain ⟨seen, read, hforall, hglob, htext⟩ := h
      exact ⟨seen ++ [g], read ++ [c], List.rel_append hforall (.cons hsame .nil), by simp [hglob],
        by simp [htext]⟩

/-- The last asterisk could take more bytes than it has. -/
def Later : Option (Bytes × Bytes) → Prop
  | none => False
  | some (glob', text') => ∃ rest, rest <:+ text'.tail ∧ Spells glob' rest

/-- What the last asterisk could gain, the rest of the glob gains from a later start. -/
theorem Later.exists_suffix (h : Later back) (hbehind : Behind glob text back) :
    ∃ rest, rest <:+ text ∧ Spells glob rest := by
  cases back with
  | none => exact h.elim
  | some b =>
      obtain ⟨seen, read, hforall, hglob, htext⟩ := hbehind
      obtain ⟨rest, hrest, hspells⟩ := h
      rw [hglob] at hspells
      rw [htext] at hrest
      exact exists_suffix_of_append hforall (hrest.trans (List.tail_suffix _)) hspells

/-- Where an asterisk has just been met, all places from there on are open to what is behind it. -/
theorem spells_or_later_iff : Spells glob text ∨ Later (some (glob, text)) ↔
    ∃ rest, rest <:+ text ∧ Spells glob rest := by
  constructor
  · rintro (h | ⟨rest, hrest, h⟩)
    · exact ⟨text, List.suffix_refl _, h⟩
    · exact ⟨rest, hrest.trans (List.tail_suffix _), h⟩
  · rintro ⟨rest, hrest, h⟩
    cases text with
    | nil => exact .inl (List.suffix_nil.mp hrest ▸ h)
    | cons c text =>
        rcases List.suffix_cons_iff.mp hrest with rfl | hrest
        · exact .inl h
        · exact .inr ⟨rest, hrest, h⟩

/-- A walk answers whether the rest of the glob spells the rest of the text, or all that is behind
the last asterisk spells what is left if that takes more. -/
theorem Ends.answer_iff (h : Ends glob text back answer) (hbehind : Behind glob text back) :
    answer = true ↔ Spells glob text ∨ Later back := by
  induction h with
  | done =>
      rw [← spells_nil_iff]
      refine ⟨.inl, fun h => h.elim id fun hlater => ?_⟩
      obtain ⟨rest, hrest, hspells⟩ := hlater.exists_suffix hbehind
      exact List.suffix_nil.mp hrest ▸ hspells
  | same hsame _ ih =>
      rw [ih (hbehind.same hsame), spells_cons_iff hsame]
  | @star c glob text back answer hc _ ih =>
      have hmeets : (c :: text).head? ≠ some anyRun := fun h => hc (Option.some.inj h)
      -- The new asterisk takes over from the last one.
      rw [ih (behind_self ..), spells_or_later_iff, spells_run_iff hmeets]
      refine ⟨.inl, fun h => h.elim id fun hlater => ?_⟩
      obtain ⟨rest, hrest, hspells⟩ := hlater.exists_suffix hbehind
      obtain ⟨rest', hrest', hspells'⟩ := hspells.exists_suffix
      exact ⟨rest', hrest'.trans hrest, hspells'⟩
  | again hstuck _ ih =>
      rw [ih (behind_self ..), spells_or_later_iff, or_iff_right (not_spells_of_stuck hstuck)]
      rfl
  | failed hstuck => simp [Later, not_spells_of_stuck hstuck]

/-! ### The bound on the steps -/

/-- What a walk may still take: the glob up to its end, and all that is behind the last asterisk
once more for each byte that the asterisk can still be given. -/
def effort (glob text : Bytes) (back : Option (Bytes × Bytes)) : Nat :=
  let (glob', text') := back.getD (glob, text)
  glob.length + text'.length * (glob'.length + 1)

@[simp] theorem effort_none (glob text : Bytes) :
    effort glob text none = glob.length + text.length * (glob.length + 1) := rfl

@[simp] theorem effort_some (glob text glob' text' : Bytes) :
    effort glob text (some (glob', text')) = glob.length + text'.length * (glob'.length + 1) := rfl

theorem effort_same (g c : UInt8) (glob text : Bytes) (back : Option (Bytes × Bytes)) :
    effort glob text back < effort (g :: glob) (c :: text) back := by
  cases back with
  | none =>
      have hmul := Nat.mul_le_mul (Nat.le_add_right text.length 1)
        (Nat.le_add_right (glob.length + 1) 1)
      simp only [effort_none, List.length_cons]
      omega
  | some b =>
      obtain ⟨glob', text'⟩ := b
      simp

/-- A new asterisk has less of the glob and no more of the text behind it than the last one. -/
theorem effort_star (hbehind : Behind (g :: glob) text back) :
    effort glob text (some (glob, text)) < effort (g :: glob) text back := by
  cases back with
  | none =>
      have hmul := Nat.mul_le_mul_left text.length (Nat.le_add_right (glob.length + 1) 1)
      simp only [effort_none, effort_some, List.length_cons]
      omega
  | some b =>
      obtain ⟨glob', text'⟩ := b
      obtain ⟨seen, read, -, rfl, rfl⟩ := hbehind
      have hglob : glob.length + 1 ≤ (seen ++ g :: glob).length + 1 := by
        simp only [List.length_append, List.length_cons]
        omega
      have htext : text.length ≤ (read ++ text).length := by simp
      have hmul := Nat.mul_le_mul htext hglob
      simp only [effort_some, List.length_cons]
      omega

theorem effort_again (c c' : UInt8) (glob text glob' text' : Bytes) :
    effort glob' text' (some (glob', text')) <
      effort glob (c :: text) (some (glob', c' :: text')) := by
  simp only [effort_some, List.length_cons, Nat.succ_mul]
  omega

section Walk

variable {fuel : Nat}

theorem walk_of_same (h : Same g c) :
    walk (fuel + 1) (g :: glob) (c :: text) back = walk fuel glob text back :=
  if_pos h

theorem walk_of_star (h : c ≠ anyRun) : walk (fuel + 1) (anyRun :: glob) (c :: text) back =
    walk fuel glob (c :: text) (some (glob, c :: text)) := by
  have hbyte : anyRun ≠ anyByte := by decide
  simp [walk, hbyte, h.symm]

theorem walk_of_stuck (h : Stuck glob c) : walk (fuel + 1) glob (c :: text) back =
    match back with
    | some (glob', _ :: text') => walk fuel glob' text' (some (glob', text'))
    | _ => false := by
  cases glob with
  | nil => rfl
  | cons g glob =>
      obtain ⟨hsame, hstar⟩ := h g rfl
      exact (if_neg hsame).trans (if_neg hstar)

theorem same_or_stuck (glob : Bytes) (c : UInt8) :
    (∃ g glob', glob = g :: glob' ∧ (Same g c ∨ g = anyRun ∧ c ≠ anyRun)) ∨ Stuck glob c := by
  cases glob with
  | nil => exact .inr nofun
  | cons g glob =>
      by_cases hsame : Same g c
      · exact .inl ⟨g, glob, rfl, .inl hsame⟩
      · by_cases hstar : g = anyRun
        · exact .inl ⟨g, glob, rfl, .inr ⟨hstar, fun hc => hsame (.inr (hstar.trans hc.symm))⟩⟩
        · refine .inr fun g' hg' => ?_
          obtain rfl : g = g' := Option.some.inj hg'
          exact ⟨hsame, hstar⟩

/-- With a bound above its effort a walk comes to its own end. -/
theorem ends_walk (hbehind : Behind glob text back) (hfuel : effort glob text back < fuel) :
    Ends glob text back (walk fuel glob text back) := by
  induction fuel generalizing glob text back with
  | zero => exact absurd hfuel (Nat.not_lt_zero _)
  | succ fuel ih =>
      cases text with
      | nil =>
          rw [walk]
          exact .done
      | cons c text =>
          obtain ⟨g, glob, rfl, hsame | ⟨rfl, hstar⟩⟩ | hstuck := same_or_stuck glob c
          · have hless := effort_same g c glob text back
            rw [walk_of_same hsame]
            exact .same hsame (ih (hbehind.same hsame) (by omega))
          · have hless := effort_star hbehind
            rw [walk_of_star hstar]
            exact .star hstar (ih (behind_self ..) (by omega))
          · rw [walk_of_stuck hstuck]
            match back with
            | none => exact .failed hstuck
            | some (glob', []) =>
                -- The byte that is looked at lies behind the last asterisk.
                obtain ⟨seen, read, -, -, htext⟩ := hbehind
                simp at htext
            | some (glob', c' :: text') =>
                have hless := effort_again c c' glob text glob' text'
                exact .again hstuck (ih (behind_self ..) (by omega))

end Walk

theorem ends_matchesBytes (glob text : Bytes) : Ends glob text none (matchesBytes glob text) := by
  refine ends_walk trivial ?_
  simp only [effort_none, steps, Nat.succ_mul]
  omega

/-- The matcher comes to an end of its own on every glob and every text. It accepts just the texts
that the glob spells. All of these come about by replacing the bytes of the glob; and of the texts
that do, it accepts all that are free of asterisks. -/
theorem matchesBytes_exact (glob text : Bytes) :
    Ends glob text none (matchesBytes glob text) ∧
    (matchesBytes glob text = true ↔ Spells glob text) ∧
    (matchesBytes glob text = true → Denotes glob text) ∧
    (anyRun ∉ text → (matchesBytes glob text = true ↔ Denotes glob text)) := by
  have hends := ends_matchesBytes glob text
  have hspells : matchesBytes glob text = true ↔ Spells glob text := by
    rw [hends.answer_iff trivial]
    exact or_iff_left id
  exact ⟨hends, hspells, fun h => (hspells.mp h).denotes,
    fun htext => ⟨fun h => (hspells.mp h).denotes, fun h => hspells.mpr (h.spells htext)⟩⟩

/-- An asterisk alone stands for any text, but a longer text that starts with an asterisk is
refused. -/
theorem matchesBytes_exact_fails :
    ¬∀ glob text, matchesBytes glob text = true ↔ Denotes glob text := by
  intro h
  have hdenotes : Denotes [anyRun] [anyRun, 0x61] :=
    ⟨[[anyRun, 0x61]], .cons (.run _) .nil, rfl⟩
  have hrefused : matchesBytes [anyRun] [anyRun, 0x61] = false := by decide
  exact Bool.false_ne_true (hrefused.symm.trans ((h _ _).mpr hdenotes))

end HttpGateway.Glob
