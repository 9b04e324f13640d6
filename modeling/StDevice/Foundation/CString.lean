import Mathlib.Data.List.Basic

/-!
# C strings in a buffer

`strlen` and `strtok` over the cells of a buffer. A token depends only on the
cells up to the one that ends it, and `strtok` changes only that one, so what is
parsed at the front of a buffer does not depend on what follows.
-/

namespace CString

/-- The characters of a literal. -/
def ascii (s : String) : List UInt8 := s.toList.map fun c => UInt8.ofNat c.toNat

/-- The length of the string at `pos`. -/
def strlen (buf : List UInt8) (pos : Nat) : Nat := ((buf.drop pos).takeWhile (· ≠ 0)).length

/-- The text at the start of memory, up to the first NUL. -/
def cstr (mem : List UInt8) : List UInt8 := mem.takeWhile (· ≠ 0)

/-- `strncmp`. The comparison ends at a NUL that both texts have. -/
def strncmp : (a b : List UInt8) → (count : Nat) → Int
  | _, _, 0 => 0
  | a, b, count + 1 =>
      if a.headD 0 ≠ b.headD 0 then (a.headD 0).toNat - (b.headD 0).toNat
      else if a.headD 0 = 0 then 0
      else strncmp a.tail b.tail count

/-- `strstr`: where the needle first occurs. -/
def strstr : (text needle : List UInt8) → Option Nat
  | [], needle => if needle = [] then some 0 else none
  | b :: text, needle =>
      if needle <+: b :: text then some 0 else (strstr text needle).map (· + 1)

/-- A token and where the next search starts. -/
structure Token where
  start : Nat
  text : List UInt8
  next : Nat
  deriving DecidableEq, Repr

/-- The cell after the token. -/
def Token.stop (t : Token) : Nat := t.start + t.text.length

/-- The buffer with the token terminated. -/
def Token.cut (t : Token) (buf : List UInt8) : List UInt8 := buf.set t.stop 0

/-- The next token from `pos` on. The search does not go past the end of a string. -/
def strtok (buf : List UInt8) (pos : Nat) (delims : List UInt8) : Option Token :=
  let start := pos + ((buf.drop pos).takeWhile delims.contains).length
  let text := (buf.drop start).takeWhile fun b => b ≠ 0 && !delims.contains b
  let stop := start + text.length
  if text = [] then none
  else some ⟨start, text, if buf.getD stop 0 = 0 then stop else stop + 1⟩

/-- A search that ends before the first difference ends at the same place. -/
theorem takeWhile_congr {α : Type*} {p : α → Bool} {l l' : List α} {n : Nat}
    (same : l.take n = l'.take n) (inside : (l.takeWhile p).length < n) :
    l'.takeWhile p = l.takeWhile p := by
  induction l generalizing l' n with
  | nil =>
      have empty : l' = [] := by
        cases n with
        | zero => exact absurd inside (Nat.not_lt_zero _)
        | succ n => simpa using same.symm
      rw [empty]
  | cons a l ih =>
      cases n with
      | zero => exact absurd inside (Nat.not_lt_zero _)
      | succ n =>
          cases l' with
          | nil => exact absurd same (by simp)
          | cons b l' =>
              simp only [List.take_succ_cons, List.cons.injEq] at same
              obtain ⟨rfl, rest⟩ := same
              by_cases holds : p a = true
              · rw [List.takeWhile_cons_of_pos holds, List.length_cons] at inside
                rw [List.takeWhile_cons_of_pos holds, List.takeWhile_cons_of_pos holds,
                  ih rest (by omega)]
              · rw [List.takeWhile_cons_of_neg holds, List.takeWhile_cons_of_neg holds]

private theorem take_drop_congr {l l' : List UInt8} {n : Nat} (same : l.take n = l'.take n)
    (pos : Nat) : (l.drop pos).take (n - pos) = (l'.drop pos).take (n - pos) := by
  rw [← List.drop_take, ← List.drop_take, same]

theorem getD_congr {l l' : List UInt8} {n i : Nat} (same : l.take n = l'.take n)
    (inside : i < n) : l.getD i 0 = l'.getD i 0 := by
  have cell : (l.take n)[i]? = (l'.take n)[i]? := by rw [same]
  rw [List.getElem?_take_of_lt inside, List.getElem?_take_of_lt inside] at cell
  rw [List.getD_eq_getElem?_getD, List.getD_eq_getElem?_getD, cell]

/-- A text that ends inside `front` does not depend on what follows. -/
theorem cstr_append_of_mem {front : List UInt8} (ends : 0 ∈ front) (rest : List UInt8) :
    cstr (front ++ rest) = cstr front := by
  induction front with
  | nil => cases ends
  | cons b front ih =>
      by_cases nul : b = 0
      · subst nul
        rfl
      · have later : 0 ∈ front := (List.mem_cons.mp ends).resolve_left (Ne.symm nul)
        unfold cstr at ih ⊢
        rw [List.cons_append, List.takeWhile_cons_of_pos (by simpa using nul),
          List.takeWhile_cons_of_pos (by simpa using nul), ih later]

/-- A text that does not end inside `front` goes on behind it. -/
theorem cstr_append_of_notMem {front : List UInt8} (goesOn : 0 ∉ front) (rest : List UInt8) :
    cstr (front ++ rest) = front ++ cstr rest := by
  unfold cstr
  refine List.takeWhile_append_of_pos fun b inside => ?_
  have distinct : b ≠ 0 := fun nul => goesOn (nul ▸ inside)
  simpa using distinct

theorem notMem_cstr (mem : List UInt8) : 0 ∉ cstr mem := by
  intro inside
  have nonzero := List.all_takeWhile (p := fun b : UInt8 => decide (b ≠ 0)) (l := mem)
  simpa using List.all_eq_true.mp nonzero 0 inside

theorem strncmp_cons_cons (a b : UInt8) (as bs : List UInt8) (count : Nat) :
    strncmp (a :: as) (b :: bs) (count + 1) =
      if a ≠ b then (a.toNat : Int) - b.toNat else if a = 0 then 0 else strncmp as bs count :=
  rfl

theorem strncmp_nil_cons (b : UInt8) (bs : List UInt8) (count : Nat) :
    strncmp [] (b :: bs) (count + 1) = if 0 ≠ b then -(b.toNat : Int) else 0 := by
  by_cases nul : b = 0
  · subst nul
    rfl
  · rw [if_pos (Ne.symm nul), strncmp, List.headD_nil, List.headD_cons, if_pos (Ne.symm nul)]
    simp

/-- Comparing with the whole of a text asks whether memory starts with it. -/
theorem strncmp_eq_zero_iff {text : List UInt8} (plain : 0 ∉ text) (mem : List UInt8) :
    strncmp mem text text.length = 0 ↔ text <+: mem := by
  induction text generalizing mem with
  | nil => simp [strncmp]
  | cons b text ih =>
      have rest : 0 ∉ text := fun inside => plain (List.mem_cons_of_mem _ inside)
      have nonzero : b ≠ 0 := fun nul => plain (nul ▸ List.mem_cons_self)
      cases mem with
      | nil =>
          have positive : b.toNat ≠ 0 := fun zero => nonzero (UInt8.toNat_inj.mp zero)
          rw [List.length_cons, strncmp_nil_cons, if_pos (Ne.symm nonzero)]
          simp only [List.prefix_nil, reduceCtorEq, iff_false]
          omega
      | cons c mem =>
          rw [List.length_cons, strncmp_cons_cons]
          by_cases same : c = b
          · subst same
            rw [if_neg (by simp), if_neg nonzero, ih rest]
            exact (List.prefix_cons_inj c).symm
          · have values : c.toNat ≠ b.toNat := fun equal => same (UInt8.toNat_inj.mp equal)
            rw [if_pos same]
            constructor
            · intro equal
              omega
            · intro starts
              exact absurd (List.cons_prefix_cons.mp starts).1.symm same

/-- The token at `pos`. -/
theorem strtok_eq_some {buf delims : List UInt8} {pos : Nat} {t : Token}
    (token : strtok buf pos delims = some t) :
    t.start = pos + ((buf.drop pos).takeWhile delims.contains).length ∧
    t.text = ((buf.drop t.start).takeWhile fun b => b ≠ 0 && !delims.contains b) ∧
    t.text ≠ [] ∧ t.next = if buf.getD t.stop 0 = 0 then t.stop else t.stop + 1 := by
  unfold strtok at token
  simp only at token
  split at token
  case isTrue => exact absurd token (by simp)
  case isFalse found =>
    obtain rfl := Option.some.inj token
    exact ⟨rfl, rfl, found, rfl⟩

theorem strtok_bounds {buf delims : List UInt8} {pos : Nat} {t : Token}
    (token : strtok buf pos delims = some t) : pos < t.stop ∧ t.stop ≤ t.next := by
  obtain ⟨start, -, found, next⟩ := strtok_eq_some token
  have nonempty := List.length_pos_of_ne_nil found
  refine ⟨?_, ?_⟩
  · unfold Token.stop
    omega
  · rw [next]
    split <;> omega

/-- A token that ends before the first difference of two buffers is the same in
both. -/
theorem strtok_congr {buf buf' delims : List UInt8} {pos n : Nat} {t : Token}
    (same : buf.take n = buf'.take n) (token : strtok buf pos delims = some t)
    (inside : t.stop < n) : strtok buf' pos delims = some t := by
  obtain ⟨start, text, found, next⟩ := strtok_eq_some token
  have nonempty := List.length_pos_of_ne_nil found
  have skipped : (buf'.drop pos).takeWhile delims.contains =
      (buf.drop pos).takeWhile delims.contains := by
    refine takeWhile_congr (take_drop_congr same pos) ?_
    unfold Token.stop at inside
    omega
  have kept : ((buf'.drop t.start).takeWhile fun b => b ≠ 0 && !delims.contains b) = t.text := by
    rw [takeWhile_congr (take_drop_congr same t.start), ← text]
    unfold Token.stop at inside
    rw [← text]
    omega
  have terminator : buf'.getD t.stop 0 = buf.getD t.stop 0 := getD_congr same.symm inside
  unfold strtok
  simp only
  rw [skipped, ← start, kept, if_neg found]
  change some (⟨t.start, t.text, if buf'.getD t.stop 0 = 0 then t.stop else t.stop + 1⟩ : Token) = _
  rw [terminator, ← next]

theorem Token.take_cut {buf buf' : List UInt8} {n : Nat} (t : Token)
    (same : buf.take n = buf'.take n) : (t.cut buf).take n = (t.cut buf').take n := by
  unfold Token.cut
  rw [List.take_set, List.take_set, same]

theorem Token.drop_cut {buf : List UInt8} {n : Nat} {t : Token} (inside : t.stop < n) :
    (t.cut buf).drop n = buf.drop n := by
  unfold Token.cut
  rw [List.drop_set, if_pos inside]

@[simp] theorem Token.length_cut (t : Token) (buf : List UInt8) :
    (t.cut buf).length = buf.length :=
  List.length_set

/-- A token that stands behind some delimiters and in front of one. -/
theorem strtok_of_split (delims skip : List UInt8) {buf text after : List UInt8} {d : UInt8}
    {pos : Nat}
    (here : buf.drop pos = skip ++ (text ++ d :: after)) (skips : ∀ c ∈ skip, c ∈ delims)
    (given : text ≠ []) (plain : ∀ c ∈ text, c ≠ 0 ∧ c ∉ delims) (ends : d ∈ delims)
    (nonzero : d ≠ 0) :
    ∃ t, strtok buf pos delims = some t ∧ t.text = text ∧
      t.stop = pos + skip.length + text.length ∧ t.next = t.stop + 1 ∧
      (t.cut buf).drop t.next = after := by
  have skipped : (buf.drop pos).takeWhile delims.contains = skip := by
    obtain ⟨c, more, rfl⟩ := List.exists_cons_of_ne_nil given
    have stops : delims.contains c = false := by simpa using (plain c List.mem_cons_self).2
    rw [here, List.takeWhile_append_of_pos fun c inside => by simpa using skips c inside,
      List.cons_append, List.takeWhile_cons_of_neg (by rw [stops]; exact Bool.false_ne_true),
      List.append_nil]
  have start : buf.drop (pos + skip.length) = text ++ d :: after := by
    rw [← List.drop_drop, here, List.drop_left]
  have kept : ((buf.drop (pos + skip.length)).takeWhile fun b => b ≠ 0 && !delims.contains b) =
      text := by
    have stops : (d ≠ 0 && !delims.contains d) = false := by simp [ends]
    rw [start, List.takeWhile_append_of_pos fun c inside => by simpa using plain c inside,
      List.takeWhile_cons_of_neg (by rw [stops]; exact Bool.false_ne_true), List.append_nil]
  have behind : buf.drop (pos + skip.length + text.length) = d :: after := by
    rw [← List.drop_drop, start, List.drop_left]
  have terminator : buf.getD (pos + skip.length + text.length) 0 ≠ 0 := by
    have cell := congrArg (fun l => l[0]?) behind
    simp only [List.getElem?_drop, Nat.add_zero, List.getElem?_cons_zero] at cell
    rw [List.getD_eq_getElem?_getD, cell]
    exact nonzero
  let t : Token := ⟨pos + skip.length, text, pos + skip.length + text.length + 1⟩
  have rest : buf.drop t.next = after := by
    change buf.drop (pos + skip.length + text.length + 1) = after
    rw [← List.drop_drop, behind]
    rfl
  refine ⟨t, ?_, rfl, rfl, rfl, (Token.drop_cut (Nat.lt_succ_self t.stop)).trans rest⟩
  rw [strtok]
  simp only [skipped, kept, if_neg given, if_neg terminator]
  rfl

theorem not_prefix_of_strstr {text needle : List UInt8} (absent : strstr text needle = none)
    (i : Nat) : ¬ needle <+: text.drop i := by
  induction text generalizing i with
  | nil =>
      intro found
      rw [List.drop_nil, List.prefix_nil] at found
      rw [strstr, if_pos found] at absent
      exact absurd absent (by simp)
  | cons b text ih =>
      rw [strstr] at absent
      split at absent
      case isTrue => exact absurd absent (by simp)
      case isFalse other =>
        cases i with
        | zero => exact other
        | succ i => exact ih (Option.map_eq_none_iff.mp absent) i

theorem prefix_of_strstr {text needle : List UInt8} {e : Nat}
    (found : strstr text needle = some e) : needle <+: text.drop e := by
  induction text generalizing e with
  | nil =>
      rw [strstr] at found
      split at found
      case isTrue empty => exact empty ▸ List.nil_prefix
      case isFalse => cases found
  | cons b text ih =>
      rw [strstr] at found
      split at found
      case isTrue here =>
        rw [← Option.some.inj found]
        exact here
      case isFalse =>
        obtain ⟨later, rest, rfl⟩ := Option.map_eq_some_iff.mp found
        exact ih rest

/-- The search may start anywhere before the place that is found. -/
theorem strstr_drop {text needle : List UInt8} {e i : Nat} (found : strstr text needle = some e)
    (before : i ≤ e) : strstr (text.drop i) needle = some (e - i) := by
  induction text generalizing e i with
  | nil =>
      have start : e = 0 := by
        rw [strstr] at found
        split at found
        case isTrue => exact (Option.some.inj found).symm
        case isFalse => cases found
      rw [List.drop_nil, found, start, Nat.zero_sub]
  | cons b text ih =>
      cases i with
      | zero => rw [List.drop_zero, found, Nat.sub_zero]
      | succ i =>
          rw [strstr] at found
          split at found
          case isTrue =>
            have := Option.some.inj found
            omega
          case isFalse =>
            obtain ⟨later, rest, rfl⟩ := Option.map_eq_some_iff.mp found
            rw [List.drop_succ_cons, ih rest (Nat.le_of_succ_le_succ before),
              Nat.add_sub_add_right]

theorem strstr_drop_eq_none {text needle : List UInt8} (absent : strstr text needle = none)
    (i : Nat) : strstr (text.drop i) needle = none := by
  cases found : strstr (text.drop i) needle with
  | none => rfl
  | some e =>
      have there := prefix_of_strstr found
      rw [List.drop_drop] at there
      exact absurd there (not_prefix_of_strstr absent _)

/-- A text that follows a front is found there unless it occurs earlier. -/
theorem strstr_append {front needle rest : List UInt8}
    (first : ∀ i < front.length, ¬ needle <+: front.drop i ++ (needle ++ rest)) :
    strstr (front ++ (needle ++ rest)) needle = some front.length := by
  induction front with
  | nil =>
      rw [List.nil_append, List.length_nil]
      cases whole : needle ++ rest with
      | nil => rw [strstr, if_pos (List.append_eq_nil_iff.mp whole).1]
      | cons b tail => rw [strstr, if_pos ⟨rest, whole⟩]
  | cons b front ih =>
      have here : ¬ needle <+: b :: (front ++ (needle ++ rest)) := first 0 (Nat.zero_lt_succ _)
      have later := ih fun i inside => first (i + 1) (Nat.succ_lt_succ inside)
      rw [List.cons_append, strstr, if_neg here, later]
      rfl

/-- A character is found behind a front without it. -/
theorem strstr_singleton {front : List UInt8} {b : UInt8} (absent : b ∉ front)
    (rest : List UInt8) : strstr (front ++ b :: rest) [b] = some front.length := by
  have first : ∀ i < front.length, ¬ [b] <+: front.drop i ++ ([b] ++ rest) := by
    intro i inside found
    rw [List.drop_eq_getElem_cons inside] at found
    obtain ⟨same, -⟩ := List.cons_prefix_cons.mp found
    exact absent (same ▸ List.getElem_mem inside)
  exact strstr_append first

/-- A search passes over a front without the first character of what it looks for. -/
theorem strstr_append_of_notMem {front needle : List UInt8} {b : UInt8} (absent : b ∉ front)
    (rest : List UInt8) :
    strstr (front ++ rest) (b :: needle) =
      (strstr rest (b :: needle)).map (· + front.length) := by
  induction front with
  | nil => simp
  | cons c front ih =>
      have other : ¬ b :: needle <+: c :: (front ++ rest) := by
        intro found
        exact absent ((List.cons_prefix_cons.mp found).1 ▸ List.mem_cons_self)
      have later : b ∉ front := fun inside => absent (List.mem_cons_of_mem c inside)
      rw [List.cons_append, strstr, if_neg other, ih later, Option.map_map]
      rfl

end CString
