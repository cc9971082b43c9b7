import Mathlib.Order.Lattice
import Mathlib.Data.List.Pairwise

namespace Assoc

variable {κ β : Type*} [LinearOrder κ]

def find? (k : κ) : List (κ × β) → Option β
  | [] => none
  | (k', v) :: m => if k = k' then some v else find? k m

/-- `m[k] = v`: replace the entry of `k`, or add one at its place. -/
def set (k : κ) (v : β) : List (κ × β) → List (κ × β)
  | [] => [(k, v)]
  | (k', v') :: m =>
    if k < k' then (k, v) :: (k', v') :: m
    else if k = k' then (k, v) :: m
    else (k', v') :: set k v m

/-- `m[k] = *v`, if there is a value. -/
def setSome (k : κ) : Option β → List (κ × β) → List (κ × β)
  | some v, m => set k v m
  | none, m => m

/-- A map that some of these entries are set in, one after the other. -/
def setAll (entries : List (κ × Option β)) (m : List (κ × β)) : List (κ × β) :=
  entries.foldl (fun m e => setSome e.1 e.2 m) m

/-- `m.emplace(k, v)`: an entry that exists stays. -/
def emplace (k : κ) (v : β) (m : List (κ × β)) : List (κ × β) :=
  match find? k m with
  | some _ => m
  | none => set k v m

/-- A map filled by emplacing a list of entries from left to right. -/
def ofList (entries : List (κ × β)) : List (κ × β) :=
  entries.foldl (fun m e => emplace e.1 e.2 m) []

/-- Keys ascend strictly, so no key occurs twice: the list is the contents of a
balanced tree in iteration order. -/
def Ordered (m : List (κ × β)) : Prop := m.Pairwise (fun a b => a.1 < b.1)

theorem ordered_iff_keys (m : List (κ × β)) :
    Ordered m ↔ (m.map Prod.fst).Pairwise (· < ·) := List.pairwise_map.symm

theorem Ordered.nil : Ordered ([] : List (κ × β)) := List.Pairwise.nil

theorem set_mem {k : κ} {v : β} {m : List (κ × β)} {e : κ × β} (h : e ∈ set k v m) :
    e = (k, v) ∨ e ∈ m := by
  induction m with
  | nil => simpa [set] using h
  | cons p m ih =>
    obtain ⟨k', v'⟩ := p
    unfold set at h
    split at h
    · simpa using h
    · split at h
      · rcases List.mem_cons.mp h with h | h
        · exact .inl h
        · exact .inr (List.mem_cons_of_mem _ h)
      · rcases List.mem_cons.mp h with h | h
        · exact .inr (h ▸ List.mem_cons_self)
        · exact (ih h).imp_right (List.mem_cons_of_mem _)

theorem Ordered.set {m : List (κ × β)} (h : Ordered m) (k : κ) (v : β) :
    Ordered (set k v m) := by
  induction m with
  | nil => simp [Assoc.set, Ordered]
  | cons p m ih =>
    obtain ⟨k', v'⟩ := p
    obtain ⟨hp, hm⟩ := List.pairwise_cons.mp h
    unfold Assoc.set
    split
    · rename_i hlt
      refine List.pairwise_cons.mpr ⟨?_, h⟩
      intro e he
      rcases List.mem_cons.mp he with rfl | he
      · exact hlt
      · exact lt_trans hlt (hp e he)
    · split
      · rename_i heq
        subst heq
        exact List.pairwise_cons.mpr ⟨hp, hm⟩
      · rename_i hlt hne
        refine List.pairwise_cons.mpr ⟨?_, ih hm⟩
        intro e he
        rcases set_mem he with rfl | he
        · exact lt_of_le_of_ne (not_lt.mp hlt) (Ne.symm hne)
        · exact hp e he

theorem Ordered.setSome {m : List (κ × β)} (h : Ordered m) (k : κ) (v : Option β) :
    Ordered (setSome k v m) := by
  cases v with
  | none => exact h
  | some v => exact h.set k v

theorem Ordered.emplace {m : List (κ × β)} (h : Ordered m) (k : κ) (v : β) :
    Ordered (emplace k v m) := by
  unfold Assoc.emplace
  split
  · exact h
  · exact h.set k v

theorem ordered_ofList (entries : List (κ × β)) : Ordered (ofList entries) := by
  have go (m : List (κ × β)) (hm : Ordered m) :
      Ordered (entries.foldl (fun m e => Assoc.emplace e.1 e.2 m) m) := by
    induction entries generalizing m with
    | nil => exact hm
    | cons e es ih => exact ih _ (hm.emplace e.1 e.2)
  exact go [] .nil

@[simp] theorem find?_set_self (k : κ) (v : β) (m : List (κ × β)) :
    find? k (set k v m) = some v := by
  induction m with
  | nil => simp [set, find?]
  | cons p m ih =>
    unfold set
    split
    · simp [find?]
    · split
      · simp [find?]
      · simp [find?, *]

theorem find?_set_ne {k k' : κ} (h : k' ≠ k) (v : β) (m : List (κ × β)) :
    find? k' (set k v m) = find? k' m := by
  induction m with
  | nil => simp [set, find?, h]
  | cons p m ih =>
    unfold set
    split
    · simp [find?, h]
    · split
      · rename_i heq
        simp [find?, h, ← heq]
      · simp [find?, ih]

theorem set_set (k : κ) (u v : β) (m : List (κ × β)) : set k v (set k u m) = set k v m := by
  induction m with
  | nil => simp only [set, lt_irrefl, if_false, if_true]
  | cons e m ih =>
    obtain ⟨k', w⟩ := e
    by_cases hlt : k < k'
    · simp only [set, hlt, if_true, lt_irrefl, if_false]
    · by_cases heq : k = k'
      · simp only [set, heq, lt_irrefl, if_false, if_true]
      · simp only [set, hlt, heq, if_false, ih]

theorem find?_setSome_ne {k k' : κ} (h : k' ≠ k) (v : Option β) (m : List (κ × β)) :
    find? k' (setSome k v m) = find? k' m := by
  cases v with
  | none => rfl
  | some v => exact find?_set_ne h v m

/-- A key beyond all others goes to the end. -/
theorem set_last {k : κ} {v : β} {m : List (κ × β)} (h : ∀ e ∈ m, e.1 < k) :
    set k v m = m ++ [(k, v)] := by
  induction m with
  | nil => rfl
  | cons p m ih =>
    have hp := h p (by simp)
    simp [set, not_lt_of_gt hp, ne_of_gt hp, ih (fun e he => h e (by simp [he]))]

theorem find?_none {k : κ} {m : List (κ × β)} (h : ∀ e ∈ m, e.1 ≠ k) : find? k m = none := by
  induction m with
  | nil => rfl
  | cons p m ih =>
    simp [find?, (h p (by simp)).symm, ih (fun e he => h e (by simp [he]))]

theorem find?_eq_none {k : κ} {m : List (κ × β)} : find? k m = none ↔ k ∉ m.map Prod.fst := by
  induction m with
  | nil => simp [find?]
  | cons p m ih =>
    by_cases h : k = p.1
    · simp [find?, h]
    · simpa [find?, h] using ih

/-- Filling a map from the entries of an ordered map gives that map back. -/
theorem ofList_ordered {m : List (κ × β)} (h : Ordered m) : ofList m = m := by
  have go (pre suf : List (κ × β)) (hm : Ordered (pre ++ suf)) :
      suf.foldl (fun m e => emplace e.1 e.2 m) pre = pre ++ suf := by
    induction suf generalizing pre with
    | nil => simp
    | cons e suf ih =>
      have hlt : ∀ a ∈ pre, a.1 < e.1 := fun a ha =>
        (List.pairwise_append.mp hm).2.2 a ha e (by simp)
      have hstep : emplace e.1 e.2 pre = pre ++ [e] := by
        rw [emplace, find?_none (fun a ha => ne_of_lt (hlt a ha)), set_last hlt]
      rw [List.foldl_cons, hstep, ih (pre ++ [e]) (by simpa using hm)]
      simp
  exact go [] m h

/-- Every entry of a filled map is one of the entries given. -/
theorem ofList_mem {entries : List (κ × β)} {e : κ × β} (h : e ∈ ofList entries) :
    e ∈ entries := by
  have go (es m : List (κ × β)) (h : e ∈ es.foldl (fun m e => emplace e.1 e.2 m) m) :
      e ∈ m ∨ e ∈ es := by
    induction es generalizing m with
    | nil => exact .inl h
    | cons p es ih =>
      rcases ih _ h with hm | hes
      · cases hf : find? p.1 m with
        | some _ => exact .inl (by simpa [emplace, hf] using hm)
        | none =>
          rcases set_mem (by simpa [emplace, hf] using hm) with rfl | hm
          · exact .inr (by simp)
          · exact .inl hm
      · exact .inr (List.mem_cons_of_mem _ hes)
  simpa using go entries [] h

theorem find?_setAll_ne {entries : List (κ × Option β)} {k : κ}
    (h : k ∉ entries.map Prod.fst) (m : List (κ × β)) :
    find? k (setAll entries m) = find? k m := by
  induction entries generalizing m with
  | nil => rfl
  | cons e entries ih =>
    obtain ⟨hne, hrest⟩ := not_or.mp (fun hor => h (List.mem_cons.mpr hor))
    exact (ih hrest _).trans (find?_setSome_ne hne e.2 m)

/-- Of entries with distinct keys, each is what the map has under its key. -/
theorem find?_setAll {entries : List (κ × Option β)} (hkeys : (entries.map Prod.fst).Nodup)
    {k : κ} {o : Option β} (h : (k, o) ∈ entries) : find? k (setAll entries []) = o := by
  obtain ⟨before, after, rfl⟩ := List.append_of_mem h
  rw [List.map_append, List.map_cons] at hkeys
  obtain ⟨_, hafter, hdisjoint⟩ := List.nodup_append.mp hkeys
  have hbefore : k ∉ before.map Prod.fst :=
    fun hmem => hdisjoint k hmem k List.mem_cons_self rfl
  have hsplit : setAll (before ++ (k, o) :: after) [] =
      setAll after (setSome k o (setAll before ([] : List (κ × β)))) := List.foldl_append
  rw [hsplit, find?_setAll_ne (List.nodup_cons.mp hafter).1]
  cases o with
  | none => exact find?_setAll_ne hbefore []
  | some v => exact find?_set_self k v _

/-- Entries with the same distinct keys that make the same map are the same. -/
theorem setAll_injective {entries entries' : List (κ × Option β)}
    (hkeys : (entries.map Prod.fst).Nodup) (hsame : entries.map Prod.fst = entries'.map Prod.fst)
    (h : setAll entries [] = setAll entries' []) : entries = entries' := by
  have hlen : entries.length = entries'.length := by
    simpa using congrArg List.length hsame
  apply List.ext_getElem hlen
  intro i hi hi'
  have hkey : entries[i].1 = entries'[i].1 := by
    have hith := congrArg (fun keys => keys[i]?) hsame
    simpa [hi, hi'] using hith
  apply Prod.ext hkey
  have hfound : find? entries[i].1 (setAll entries []) = entries[i].2 :=
    find?_setAll hkeys (List.getElem_mem hi)
  have hfound' : find? entries'[i].1 (setAll entries' []) = entries'[i].2 :=
    find?_setAll (hsame ▸ hkeys) (List.getElem_mem hi')
  rw [← hfound, h, hkey, hfound']

theorem find?_cons (k : κ) (e : κ × β) (m : List (κ × β)) :
    find? k (e :: m) = if k = e.1 then some e.2 else find? k m := rfl

theorem find?_append (k : κ) (m m' : List (κ × β)) :
    find? k (m ++ m') = (find? k m).or (find? k m') := by
  induction m with
  | nil => rfl
  | cons e m ih =>
    rw [List.cons_append, find?_cons, find?_cons, ih]
    split
    · rfl
    · rfl

theorem find?_emplace (k k' : κ) (v : β) (m : List (κ × β)) :
    find? k' (emplace k v m) = (find? k' m).or (if k' = k then some v else none) := by
  unfold emplace
  by_cases h : k' = k
  · subst h
    cases hf : find? k' m with
    | none => simp
    | some w => simp [hf]
  · cases hf : find? k m with
    | none => simp [find?_set_ne h, h]
    | some w => simp [h]

/-- Of several entries of one key a filled map keeps the first. -/
theorem find?_ofList (k : κ) (entries : List (κ × β)) :
    find? k (ofList entries) = find? k entries := by
  have go (m : List (κ × β)) : find? k (entries.foldl (fun m e => emplace e.1 e.2 m) m) =
      (find? k m).or (find? k entries) := by
    induction entries generalizing m with
    | nil => simp [find?]
    | cons e es ih =>
      rw [List.foldl_cons, ih, find?_emplace, Option.or_assoc, find?_cons]
      by_cases h : k = e.1 <;> simp [h]
  exact (go []).trans (by simp [find?])

theorem find?_mem {k : κ} {v : β} {m : List (κ × β)} (h : find? k m = some v) : (k, v) ∈ m := by
  induction m with
  | nil => cases h
  | cons e m ih =>
    rw [find?_cons] at h
    by_cases hk : k = e.1
    · rw [if_pos hk] at h
      cases h
      simp [hk]
    · rw [if_neg hk] at h
      exact List.mem_cons_of_mem _ (ih h)

theorem find?_mapKeyed {γ : Type*} (f : κ → β → γ) (k : κ) (m : List (κ × β)) :
    find? k (m.map (fun e => (e.1, f e.1 e.2))) = (find? k m).map (f k) := by
  induction m with
  | nil => rfl
  | cons e m ih =>
    rw [List.map_cons, find?_cons, find?_cons]
    by_cases h : k = e.1 <;> simp [h, ih]

theorem find?_map {γ : Type*} (f : β → γ) (k : κ) (m : List (κ × β)) :
    find? k (m.map (fun e => (e.1, f e.2))) = (find? k m).map f :=
  find?_mapKeyed (fun _ => f) k m

theorem ordered_mapKeyed {γ : Type*} (f : κ → β → γ) {m : List (κ × β)} :
    Ordered (m.map (fun e => (e.1, f e.1 e.2))) ↔ Ordered m := by
  rw [ordered_iff_keys, ordered_iff_keys, List.map_map]
  rfl

theorem find?_filter (p : κ → Bool) (k : κ) (m : List (κ × β)) :
    find? k (m.filter (fun e => p e.1)) = if p k then find? k m else none := by
  induction m with
  | nil => simp [find?]
  | cons e m ih =>
    by_cases hp : p e.1 = true
    · rw [List.filter_cons_of_pos (by simpa using hp), find?_cons, find?_cons]
      by_cases h : k = e.1
      · simp [h, hp]
      · simp [h, ih]
    · rw [List.filter_cons_of_neg (by simpa using hp), ih, find?_cons]
      by_cases h : k = e.1 <;> simp [h, hp]

theorem Ordered.filter {m : List (κ × β)} (h : Ordered m) (p : κ × β → Bool) :
    Ordered (m.filter p) := List.Pairwise.filter p h

theorem Ordered.find?_of_mem {m : List (κ × β)} (h : Ordered m) {k : κ} {v : β}
    (hm : (k, v) ∈ m) : find? k m = some v := by
  induction m with
  | nil => cases hm
  | cons e m ih =>
    obtain ⟨he, hrest⟩ := List.pairwise_cons.mp h
    rw [find?_cons]
    rcases List.mem_cons.mp hm with heq | hm
    · cases heq
      exact if_pos rfl
    · rw [if_neg (ne_of_gt (he _ hm))]
      exact ih hrest hm

/-- Two ordered maps in which each key finds the same are the same. -/
theorem Ordered.ext {m m' : List (κ × β)} (h : Ordered m) (h' : Ordered m')
    (hfind : ∀ k, find? k m = find? k m') : m = m' := by
  have hmem (e : κ × β) : e ∈ m ↔ e ∈ m' := by
    constructor
    · intro he
      exact find?_mem ((hfind e.1).symm.trans (h.find?_of_mem he))
    · intro he
      exact find?_mem ((hfind e.1).trans (h'.find?_of_mem he))
  have hnodup {l : List (κ × β)} (hl : Ordered l) : l.Nodup :=
    hl.imp (fun hlt heq => absurd (congrArg Prod.fst heq) (ne_of_lt hlt))
  have hperm := (List.perm_ext_iff_of_nodup (hnodup h) (hnodup h')).mpr hmem
  exact hperm.eq_of_pairwise (fun a b _ _ hab hba => absurd hab (lt_asymm hba)) h h'

/-- An entry set to what it is. -/
theorem Ordered.set_self {k : κ} {v : β} {m : List (κ × β)} (h : Ordered m)
    (hv : find? k m = some v) : Assoc.set k v m = m := by
  apply Ordered.ext (h.set k v) h
  intro k'
  by_cases heq : k' = k
  · rw [heq, find?_set_self, hv]
  · rw [find?_set_ne heq]

theorem Ordered.set_comm {m : List (κ × β)} (h : Ordered m) {k k' : κ} (hne : k ≠ k') (v w : β) :
    Assoc.set k v (Assoc.set k' w m) = Assoc.set k' w (Assoc.set k v m) := by
  apply Ordered.ext ((h.set k' w).set k v) ((h.set k v).set k' w)
  intro i
  by_cases hi : i = k
  · rw [hi, find?_set_self, find?_set_ne hne, find?_set_self]
  · by_cases hi' : i = k'
    · rw [hi', find?_set_ne hne.symm, find?_set_self, find?_set_self]
    · rw [find?_set_ne hi, find?_set_ne hi', find?_set_ne hi', find?_set_ne hi]

theorem Ordered.setSome_comm {m : List (κ × β)} (h : Ordered m) {k k' : κ} (hne : k ≠ k')
    (o : Option β) (w : β) :
    Assoc.setSome k o (Assoc.set k' w m) = Assoc.set k' w (Assoc.setSome k o m) := by
  cases o with
  | none => rfl
  | some v => exact h.set_comm hne v w

theorem Ordered.setAll {m : List (κ × β)} (h : Ordered m) (entries : List (κ × Option β)) :
    Ordered (Assoc.setAll entries m) := by
  induction entries generalizing m with
  | nil => exact h
  | cons e entries ih => exact ih (h.setSome e.1 e.2)

theorem Ordered.setAll_comm {m : List (κ × β)} (h : Ordered m) {entries : List (κ × Option β)}
    {k : κ} (hk : k ∉ entries.map Prod.fst) (v : β) :
    Assoc.setAll entries (Assoc.set k v m) = Assoc.set k v (Assoc.setAll entries m) := by
  induction entries generalizing m with
  | nil => rfl
  | cons e entries ih =>
    obtain ⟨hne, hrest⟩ := not_or.mp (fun hor => hk (List.mem_cons.mpr hor))
    have hcomm := h.setSome_comm (fun heq => hne heq.symm) e.2 v
    exact (congrArg (Assoc.setAll entries) hcomm).trans (ih (h.setSome e.1 e.2) hrest)

/-- One of the entries set again, with nothing else under its key. -/
theorem set_setAll {before after : List (κ × Option β)} {k : κ} (v w : β)
    (hk : k ∉ after.map Prod.fst) :
    Assoc.set k w (setAll (before ++ (k, some v) :: after) []) =
      setAll (before ++ (k, some w) :: after) [] := by
  have hbefore : Ordered (setAll before ([] : List (κ × β))) := Ordered.nil.setAll before
  have hsplit (u : β) : setAll (before ++ (k, some u) :: after) [] =
      setAll after (Assoc.set k u (setAll before ([] : List (κ × β)))) := List.foldl_append
  rw [hsplit, hsplit, ← (hbefore.set k v).setAll_comm hk, set_set]

/-- The first entry of a filled map is set whatever follows. -/
theorem ofList_cons (e : κ × β) (entries : List (κ × β)) :
    ofList (e :: entries) = Assoc.set e.1 e.2 (ofList entries) := by
  apply Ordered.ext (ordered_ofList _) ((ordered_ofList entries).set _ _)
  intro k
  rw [find?_ofList, find?_cons]
  by_cases h : k = e.1
  · rw [if_pos h, h, find?_set_self]
  · rw [if_neg h, find?_set_ne h, find?_ofList]

/-- A map filled with the entries of some keys of an ordered map is the part of
that map at these keys. -/
theorem Ordered.filter_eq_ofList {m entries : List (κ × β)} {p : κ → Bool} (h : Ordered m)
    (hin : ∀ e ∈ entries, p e.1 = true ∧ find? e.1 m = some e.2)
    (hout : ∀ k, p k = true → k ∈ entries.map Prod.fst ∨ find? k m = none) :
    m.filter (fun e => p e.1) = ofList entries := by
  refine (h.filter _).ext (ordered_ofList entries) ?_
  intro k
  rw [find?_filter, find?_ofList]
  cases hk : find? k entries with
  | some v =>
    obtain ⟨hp, hfind⟩ := hin _ (find?_mem hk)
    rw [if_pos hp]
    exact hfind
  | none =>
    cases hp : p k with
    | true => exact (hout k hp).resolve_left (find?_eq_none.mp hk)
    | false => rfl

/-- `m[k] = f(m[k])`, where there is such an entry. -/
def adjust (k : κ) (f : β → β) (m : List (κ × β)) : List (κ × β) :=
  m.map (fun e => (e.1, if e.1 = k then f e.2 else e.2))

theorem Ordered.adjust {m : List (κ × β)} (h : Ordered m) (k : κ) (f : β → β) :
    Ordered (adjust k f m) :=
  (ordered_mapKeyed (fun k' v => if k' = k then f v else v)).mpr h

theorem find?_adjust_self (k : κ) (f : β → β) (m : List (κ × β)) :
    find? k (adjust k f m) = (find? k m).map f := by
  rw [adjust, find?_mapKeyed (fun k' v => if k' = k then f v else v)]
  simp

theorem find?_adjust_ne {k k' : κ} (h : k' ≠ k) (f : β → β) (m : List (κ × β)) :
    find? k' (adjust k f m) = find? k' m := by
  rw [adjust, find?_mapKeyed (fun k' v => if k' = k then f v else v)]
  simp [h]

end Assoc
