import MeshControl.Text.Ipv6
import MeshControl.Proofs.Text.Numerals
import Mathlib.Data.List.Induction

/-!
Addresses that end in zeros, as text and back. Such an address is a front that ends in no zero and
as many zeros as the front leaves. As long as the front is no longer than the zeros, these are the
longest run, so the text is the front and a double colon (`render_append_zeros`). The reader takes
the front up to the double colon and fills the address up (`read_front`), which gives the groups
back that were written (`read_render`).
-/

namespace MeshControl.Text.Ipv6

/-! ## Writing -/

/-- The groups before the last zeros, and the number of these. -/
theorem exists_front (groups : Groups) : ∃ front count,
    groups = front ++ List.replicate count 0 ∧ front.getLast? ≠ some 0 := by
  induction groups using List.reverseRecOn with
  | nil => exact ⟨[], 0, rfl, by simp⟩
  | append_singleton groups last ih =>
    obtain ⟨front, count, rfl, hfront⟩ := ih
    by_cases hlast : last = 0
    · exact ⟨front, count + 1, by rw [hlast, List.replicate_succ', List.append_assoc], hfront⟩
    · exact ⟨_, 0, (List.append_nil _).symm, by simpa using hlast⟩

/-- The zeros at the front end before a group that is none. -/
theorem leadingZeros_append_lt {front : Groups} (hfront : ∃ group ∈ front, group ≠ 0)
    (groups : Groups) : leadingZeros (front ++ groups) < front.length := by
  induction front with
  | nil =>
    obtain ⟨_, hmem, -⟩ := hfront
    cases hmem
  | cons first rest ih =>
    unfold leadingZeros at ih ⊢
    by_cases hfirst : first = 0
    · have hrest : ∃ group ∈ rest, group ≠ 0 := by
        obtain ⟨group, hmem, hgroup⟩ := hfront
        rcases List.mem_cons.mp hmem with rfl | hmem
        · exact absurd hfirst hgroup
        · exact ⟨group, hmem, hgroup⟩
      have hlt := ih hrest
      rw [List.cons_append, List.takeWhile_cons_of_pos (by simpa using hfirst)]
      simpa using hlt
    · rw [List.cons_append, List.takeWhile_cons_of_neg (by simpa using hfirst)]
      simp

theorem leadingZeros_replicate (count : Nat) : leadingZeros (List.replicate count 0) = count := by
  simp [leadingZeros]

theorem longestZeros_replicate (index count : Nat) :
    longestZeros index (List.replicate count 0) = (index, count) := by
  induction count generalizing index with
  | zero => rfl
  | succ count ih =>
    have hzeros := leadingZeros_replicate (count + 1)
    rw [List.replicate_succ] at hzeros ⊢
    rw [longestZeros, ih, hzeros]
    simp

/-- Zeros behind a front that is no longer than they are and ends in no zero are the longest run. -/
theorem longestZeros_append_zeros {front : Groups} {count : Nat}
    (hfront : front.getLast? ≠ some 0) (hlength : front.length ≤ count) (index : Nat) :
    longestZeros index (front ++ List.replicate count 0) = (index + front.length, count) := by
  induction front generalizing index with
  | nil => exact longestZeros_replicate index count
  | cons first rest ih =>
    have hlast : (first :: rest).getLast (List.cons_ne_nil _ _) ≠ 0 := fun h =>
      hfront (by rw [List.getLast?_eq_some_getLast (List.cons_ne_nil _ _), h])
    have hrest : rest.getLast? ≠ some 0 := by
      cases rest with
      | nil => simp
      | cons next others => rwa [List.getLast?_cons_cons] at hfront
    have hlt := leadingZeros_append_lt ⟨_, List.getLast_mem _, hlast⟩ (List.replicate count 0)
    rw [List.length_cons] at hlength hlt
    rw [List.cons_append] at hlt ⊢
    have hle : ¬ count ≤ leadingZeros (first :: (rest ++ List.replicate count 0)) := by omega
    simp only [longestZeros, ih hrest (by omega), if_neg hle, List.length_cons]
    rw [Nat.add_assoc, Nat.add_comm 1]

/-- The text of groups that follow others: a colon in front of each. -/
def trail (groups : Groups) : List Char :=
  groups.flatMap fun group => ':' :: Nat.toDigits 16 group

theorem toList_joined_cons (first : Nat) (rest : Groups) :
    (joined (first :: rest)).toList = Nat.toDigits 16 first ++ trail rest := by
  induction rest generalizing first with
  | nil => simp [joined, trail]
  | cons next others ih =>
    have hjoined : (joined (first :: next :: others)).toList =
        Nat.toDigits 16 first ++ ':' :: (joined (next :: others)).toList := by
      simp [joined, String.toList_intercalate]
    rw [hjoined, ih]
    simp [trail]

/-- An address whose longest run of zeros is at its end is written as its front and a double
colon. -/
theorem render_append_zeros {front : Groups} {count : Nat} (hfront : front.getLast? ≠ some 0)
    (hlength : front.length ≤ count) (hcount : 2 ≤ count) :
    (render (front ++ List.replicate count 0)).toList = (joined front).toList ++ [':', ':'] := by
  have hdrop : (front ++ List.replicate count 0).drop (front.length + count) = [] :=
    List.drop_eq_nil_of_le (by simp)
  unfold render
  simp only [longestZeros_append_zeros hfront hlength, Nat.zero_add, if_pos hcount,
    List.take_left, hdrop, String.toList_append]
  simp [joined]

/-! ## Reading -/

theorem value?_digitChar : ∀ d < 16, Hex.value? d.digitChar = some d := by decide

/-- No digit stands first. -/
def Stops (value? : Char → Option Nat) (text : List Char) : Prop :=
  ∀ c, text.head? = some c → value? c = none

theorem digits_of_stops {value? : Char → Option Nat} {text : List Char}
    (h : Stops value? text) : digits value? text = ([], text) := by
  cases text with
  | nil => rfl
  | cons c rest => simp only [digits, h c rfl]

/-- The digits at the front are read up to text that starts with none. -/
theorem digits_append {value? : Char → Option Nat} {front after : List Char} {values : List Nat}
    (hvalues : front.map value? = values.map some) (hafter : Stops value? after) :
    digits value? (front ++ after) = (values, after) := by
  induction values generalizing front with
  | nil =>
    obtain rfl := List.map_eq_nil_iff.mp hvalues
    exact digits_of_stops hafter
  | cons value rest ih =>
    obtain ⟨c, others, rfl, hc, hothers⟩ := List.map_eq_cons_iff.mp hvalues
    simp only [List.cons_append, digits, hc, ih hothers]

/-- What is left behind digits stood in the text. -/
theorem digits_suffix (value? : Char → Option Nat) (text : List Char) :
    (digits value? text).2 <:+ text := by
  induction text with
  | nil => exact List.suffix_rfl
  | cons c rest ih =>
    unfold digits
    split
    · exact ih.trans (List.suffix_cons c rest)
    · exact List.suffix_rfl

/-- A written group of sixteen bits reads back. -/
theorem group_toDigits {value : Nat} (h : value < 65536) {after : List Char}
    (hafter : Stops Hex.value? after) :
    group (Nat.toDigits 16 value ++ after) = some (value, after) := by
  obtain ⟨values, hvalues, hsum⟩ := exists_values_toDigits (by decide) value?_digitChar value
  have hlength : values.length = (Nat.toDigits 16 value).length := by
    simpa using (congrArg List.length hvalues).symm
  have hpos : 1 ≤ values.length := hlength ▸ Nat.length_toDigits_pos
  have hfour : values.length ≤ 4 := by
    rw [hlength, Nat.length_toDigits_le_iff (by decide) (by decide)]
    exact h
  simp only [group, digits_append hvalues hafter, hpos, hfour, and_self, if_true, hsum]

theorem group_of_stops {text : List Char} (h : Stops Hex.value? text) : group text = none := by
  simp [group, digits_of_stops h]

/-- Text without a point does not spell decimal octets. -/
theorem dotted_eq_none {text : List Char} (h : '.' ∉ text) : dotted text = none := by
  have hpoint : ∀ first rest, octet text = some (first, rest) → expect '.' rest = none := by
    intro first rest hoctet
    have hrest : rest <:+ text := by
      unfold octet at hoctet
      simp only [Option.ite_none_right_eq_some, Option.some.injEq, Prod.mk.injEq] at hoctet
      exact hoctet.2.2 ▸ digits_suffix _ text
    cases rest with
    | nil => rfl
    | cons c others =>
      have hc : c ≠ '.' := fun hc => h (hrest.subset (hc ▸ List.mem_cons_self))
      exact if_neg hc
  unfold dotted
  cases hoctet : octet text with
  | none => rfl
  | some first =>
    obtain ⟨value, rest⟩ := first
    simp [hpoint value rest hoctet]

/-- A run goes on with the group that the text starts with. -/
theorem run_group {slots : Nat} {isFirst : Bool} {text start after : List Char} {value : Nat}
    (hstart : (if isFirst then some text else expect ':' text) = some start)
    (hpoint : '.' ∉ start) (hgroup : group start = some (value, after)) :
    run (slots + 1) isFirst text =
      (value :: (run slots false after).1, (run slots false after).2) := by
  have hdotted : (if slots = 0 then none else dotted start) = none := by
    rw [dotted_eq_none hpoint, ite_self]
  simp only [run, hstart, hdotted, Option.bind_some, hgroup]

/-- A run ends at text that starts with no group. -/
theorem run_end {slots : Nat} {isFirst : Bool} {text start : List Char}
    (hstart : (if isFirst then some text else expect ':' text) = some start)
    (hpoint : '.' ∉ start) (hgroup : group start = none) :
    run (slots + 1) isFirst text = ([], false, text) := by
  have hdotted : (if slots = 0 then none else dotted start) = none := by
    rw [dotted_eq_none hpoint, ite_self]
  simp only [run, hstart, hdotted, Option.bind_some, hgroup]

theorem stops_colon (text : List Char) : Stops Hex.value? (':' :: text) := by
  rintro c ⟨⟩
  decide

theorem stops_trail (groups : Groups) (text : List Char) :
    Stops Hex.value? (trail groups ++ ':' :: text) := by
  cases groups with
  | nil => exact stops_colon text
  | cons first rest => exact stops_colon _

theorem isSome_of_mem_toDigits {value : Nat} {c : Char} (h : c ∈ Nat.toDigits 16 value) :
    (Hex.value? c).isSome := by
  obtain ⟨values, hvalues, -⟩ := exists_values_toDigits (by decide) value?_digitChar value
  have hmap : Hex.value? c ∈ values.map some := hvalues ▸ List.mem_map_of_mem h
  obtain ⟨_, -, hc⟩ := List.mem_map.mp hmap
  rw [← hc]
  rfl

/-- Digits and colons are all that a trail is made of. -/
theorem mem_trail {groups : Groups} {c : Char} (h : c ∈ trail groups) :
    c = ':' ∨ (Hex.value? c).isSome := by
  obtain ⟨group, -, hc⟩ := List.mem_flatMap.mp h
  exact (List.mem_cons.mp hc).imp_right isSome_of_mem_toDigits

theorem mem_joined {groups : Groups} {c : Char} (h : c ∈ (joined groups).toList) :
    c = ':' ∨ (Hex.value? c).isSome := by
  cases groups with
  | nil => cases h
  | cons first rest =>
    rw [toList_joined_cons, List.mem_append] at h
    exact h.elim (.inr ∘ isSome_of_mem_toDigits) mem_trail

theorem point_notMem_toDigits (value : Nat) : '.' ∉ Nat.toDigits 16 value := fun h =>
  absurd (isSome_of_mem_toDigits h) (by decide)

theorem point_notMem_trail (groups : Groups) : '.' ∉ trail groups := fun h =>
  absurd (mem_trail h) (by decide)

/-- The groups before a double colon are read, and the reader stops there. -/
theorem run_trail {groups : Groups} (hgroups : ∀ group ∈ groups, group < 65536) {slots : Nat}
    (hslots : groups.length ≤ slots) :
    run slots false (trail groups ++ [':', ':']) = (groups, false, [':', ':']) := by
  induction groups generalizing slots with
  | nil =>
    cases slots with
    | zero => rfl
    | succ slots => exact run_end rfl (by decide) (group_of_stops (stops_colon []))
  | cons first rest ih =>
    obtain ⟨slots, rfl⟩ : ∃ fewer, slots = fewer + 1 := ⟨slots - 1, by
      rw [List.length_cons] at hslots
      omega⟩
    have hrun := ih (fun group h => hgroups group (List.mem_cons_of_mem _ h))
      (Nat.le_of_succ_le_succ hslots)
    have hgroup := group_toDigits (hgroups first List.mem_cons_self) (stops_trail rest [':'])
    have hpoint : '.' ∉ Nat.toDigits 16 first ++ (trail rest ++ [':', ':']) := by
      simp [point_notMem_toDigits, point_notMem_trail]
    have hstart : expect ':' (trail (first :: rest) ++ [':', ':']) =
        some (Nat.toDigits 16 first ++ (trail rest ++ [':', ':'])) := by
      simp [trail, expect]
    calc run (slots + 1) false (trail (first :: rest) ++ [':', ':'])
        = (first :: (run slots false (trail rest ++ [':', ':'])).1,
            (run slots false (trail rest ++ [':', ':'])).2) := run_group hstart hpoint hgroup
      _ = (first :: rest, false, [':', ':']) := by rw [hrun]

theorem run_joined {groups : Groups} (hgroups : ∀ group ∈ groups, group < 65536) {slots : Nat}
    (hslots : groups.length ≤ slots) :
    run slots true ((joined groups).toList ++ [':', ':']) = (groups, false, [':', ':']) := by
  cases groups with
  | nil =>
    cases slots with
    | zero => rfl
    | succ slots => exact run_end rfl (by decide) (group_of_stops (stops_colon [':']))
  | cons first rest =>
    obtain ⟨slots, rfl⟩ : ∃ fewer, slots = fewer + 1 := ⟨slots - 1, by
      rw [List.length_cons] at hslots
      omega⟩
    have hrun := run_trail (fun group h => hgroups group (List.mem_cons_of_mem _ h))
      (Nat.le_of_succ_le_succ hslots)
    have hgroup := group_toDigits (hgroups first List.mem_cons_self) (stops_trail rest [':'])
    have hpoint : '.' ∉ Nat.toDigits 16 first ++ (trail rest ++ [':', ':']) := by
      simp [point_notMem_toDigits, point_notMem_trail]
    rw [toList_joined_cons, List.append_assoc, run_group rfl hpoint hgroup, hrun]

/-- A front and a double colon are read as the front with zeros that fill the address up. -/
theorem read_front {front : Groups} (hgroups : ∀ group ∈ front, group < 65536)
    (hlength : front.length < 8) {text : String}
    (htext : text.toList = (joined front).toList ++ [':', ':']) :
    read text = some (front ++ List.replicate (8 - front.length) 0) := by
  have hend : ∀ slots, run slots true [] = ([], false, []) := by
    intro slots
    cases slots with
    | zero => rfl
    | succ slots => exact run_end rfl (by simp) rfl
  unfold read
  simp only [htext, run_joined hgroups (Nat.le_of_lt hlength), if_neg (Nat.ne_of_lt hlength), hend]
  simp

/-- An address whose longest run of zeros is at its end reads back from its text. -/
theorem read_render {front : Groups} {count : Nat} (hgroups : ∀ group ∈ front, group < 65536)
    (hfront : front.getLast? ≠ some 0) (hlength : front.length ≤ count)
    (hsum : front.length + count = 8) :
    read (render (front ++ List.replicate count 0)) = some (front ++ List.replicate count 0) := by
  have htext := render_append_zeros hfront hlength (by omega)
  rw [read_front hgroups (by omega) htext, ← hsum, Nat.add_sub_cancel_left]

/-- Digits and colons are all that the text of such an address is made of. -/
theorem mem_render {front : Groups} {count : Nat} (hfront : front.getLast? ≠ some 0)
    (hlength : front.length ≤ count) (hcount : 2 ≤ count) {c : Char}
    (h : c ∈ (render (front ++ List.replicate count 0)).toList) :
    c = ':' ∨ (Hex.value? c).isSome := by
  rw [render_append_zeros hfront hlength hcount, List.mem_append] at h
  rcases h with h | h
  · exact mem_joined h
  · exact .inl (by simpa using h)

end MeshControl.Text.Ipv6
