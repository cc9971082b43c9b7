import Forgeant.CurlClient

namespace Forgeant.Proofs.HeaderLines

/-- A line with a colon, cut into the name before it, the spaces after it, and
the rest. -/
structure Cut (line name spaces rest : Str) : Prop where
  eq : line = name ++ 0x3a :: (spaces ++ rest)
  name : 0x3a ∉ name
  spaces : ∀ a ∈ spaces, a = 0x20
  rest : ∀ b r, rest = b :: r → b ≠ 0x20

theorem exists_cut {line : Str} (h : 0x3a ∈ line) :
    ∃ name spaces rest, Cut line name spaces rest := by
  obtain ⟨name, after, rfl, hname⟩ := List.eq_append_cons_of_mem h
  refine ⟨name, after.takeWhile (· == 0x20), after.dropWhile (· == 0x20), ?_, hname, ?_, ?_⟩
  · rw [List.takeWhile_append_dropWhile]
  · intro a ha
    have heq := List.mem_takeWhile_imp (p := (· == 0x20)) ha
    exact beq_iff_eq.mp heq
  · intro b r hb hspace
    have hhead := List.head?_dropWhile_not (· == 0x20) after
    rw [hb] at hhead
    simp [hspace] at hhead

variable {line : Str} {name spaces rest : Str}

theorem Cut.name_ne (h : Cut line name spaces rest) : ∀ a ∈ name, (a != 0x3a) = true := by
  intro a ha
  rw [bne, StringView.beq_of_notMem h.name a ha]
  rfl

theorem Cut.afterColon (h : Cut line name spaces rest) : afterColon line = spaces ++ rest := by
  rw [Forgeant.afterColon, h.eq, List.dropWhile_append_of_pos h.name_ne]
  simp

theorem Cut.dropSpaces (h : Cut line name spaces rest) :
    (spaces ++ rest).dropWhile (· == 0x20) = rest := by
  rw [List.dropWhile_append_of_pos (fun a ha => beq_iff_eq.mpr (h.spaces a ha))]
  cases rest with
  | nil => rfl
  | cons b r => simp [h.rest b r rfl]

theorem Cut.takeName (h : Cut line name spaces rest) : line.takeWhile (· != 0x3a) = name := by
  rw [h.eq, List.takeWhile_append_of_pos h.name_ne]
  simp

theorem Cut.headerEntry (h : Cut line name spaces rest) :
    headerEntry line = if rest = [] then none else some (name, rest.rdropWhile isCrLf) := by
  have hmem : 0x3a ∈ line := by simp [h.eq]
  rw [Forgeant.headerEntry, if_pos hmem, h.afterColon, h.dropSpaces, h.takeName]
  cases rest <;> simp

theorem Cut.all_spaces (h : Cut line name spaces rest) :
    (∀ b ∈ Forgeant.afterColon line, b = 0x20) ↔ rest = [] := by
  rw [h.afterColon]
  constructor
  · intro hall
    cases rest with
    | nil => rfl
    | cons b r => exact absurd (hall b (by simp)) (h.rest b r rfl)
  · rintro rfl
    simpa using h.spaces

/-- A line gives no entry just when it has no colon or only spaces after it. -/
theorem headerEntry_eq_none (line : Str) :
    headerEntry line = none ↔ 0x3a ∉ line ∨ ∀ b ∈ afterColon line, b = 0x20 := by
  by_cases hmem : 0x3a ∈ line
  · obtain ⟨name, spaces, rest, h⟩ := exists_cut hmem
    rw [h.headerEntry, h.all_spaces]
    simp [hmem]
  · simp [Forgeant.headerEntry, hmem]

theorem mem_crLf (b : UInt8) : b ∈ str "\r\n" ↔ isCrLf b = true := by
  have hstr : str "\r\n" = [0x0d, 0x0a] := by decide
  simp [hstr, isCrLf]

/-- The colon bounds the search for the end from below: the last byte of what
is left without the trailing line break is found. -/
theorem Cut.exists_last (h : Cut line name spaces rest) :
    ∃ pre b, line = pre ++ b :: rest.rtakeWhile isCrLf ∧ b ∉ str "\r\n" ∧
      pre.length + 1 = name.length + 1 + spaces.length + (rest.rdropWhile isCrLf).length := by
  have hline : line =
      name ++ 0x3a :: (spaces ++ rest.rdropWhile isCrLf) ++ rest.rtakeWhile isCrLf := by
    rw [h.eq]
    simp [List.rdropWhile_append_rtakeWhile]
  have hlast (pre : Str) (b : UInt8) (hb : isCrLf b = false)
      (heq : name ++ 0x3a :: (spaces ++ rest.rdropWhile isCrLf) = pre ++ [b]) :
      ∃ pre b, line = pre ++ b :: rest.rtakeWhile isCrLf ∧ b ∉ str "\r\n" ∧
        pre.length + 1 = name.length + 1 + spaces.length + (rest.rdropWhile isCrLf).length := by
    refine ⟨pre, b, ?_, ?_, ?_⟩
    · rw [hline, heq, List.append_assoc, List.singleton_append]
    · simp [mem_crLf, hb]
    · have := congrArg List.length heq
      simp only [List.length_append, List.length_cons, List.length_nil] at this
      omega
  rcases List.eq_nil_or_concat (rest.rdropWhile isCrLf) with hnil | ⟨core, b, hcore⟩
  · rcases List.eq_nil_or_concat spaces with hspaces | ⟨front, b, hspaces⟩
    · exact hlast name 0x3a (by decide) (by simp [hnil, hspaces])
    · have hb := h.spaces b (by simp [hspaces])
      exact hlast (name ++ 0x3a :: front) b (by rw [hb]; decide) (by simp [hnil, hspaces])
  · have hb : isCrLf b = false := by
      have hne : rest.rdropWhile isCrLf ≠ [] := by simp [hcore]
      have := List.rdropWhile_last_not isCrLf rest hne
      simpa [hcore] using this
    exact hlast (name ++ 0x3a :: (spaces ++ core)) b hb (by simp [hcore])

section Positions

variable {view : StringView}

theorem Cut.length (h : Cut view.chars name spaces rest) :
    name.length + 1 + spaces.length + rest.length < 2 ^ 64 := by
  have hsize := view.size_lt
  rw [h.eq] at hsize
  simp only [List.length_append, List.length_cons] at hsize
  omega

theorem Cut.find (h : Cut view.chars name spaces rest) :
    view.find 0x3a = StringView.position (some name.length) :=
  StringView.find_eq h.eq h.name

theorem Cut.found (h : Cut view.chars name spaces rest) : view.find 0x3a ≠ StringView.npos := by
  have hlength := h.length
  rw [h.find]
  exact StringView.position_ne_npos (by omega)

theorem Cut.key (h : Cut view.chars name spaces rest) :
    view.substr 0 (view.find 0x3a) = some name := by
  have hlength := h.length
  have hline : view.chars = [] ++ (name ++ 0x3a :: (spaces ++ rest)) := h.eq
  apply StringView.substr_eq hline rfl
  rw [h.find, StringView.toNat_position (by omega)]

theorem Cut.toNat_afterColon (h : Cut view.chars name spaces rest) :
    (view.find 0x3a + 1).toNat = name.length + 1 := by
  have hlength := h.length
  rw [h.find, UInt64.toNat_add, StringView.toNat_position (by omega)]
  have hone : (1 : UInt64).toNat = 1 := rfl
  rw [hone]
  omega

theorem Cut.valueStart_nil (h : Cut view.chars name spaces []) :
    valueStart view = StringView.npos := by
  apply StringView.findFirstNotOf_eq_npos
  have hdrop : view.chars.drop (name.length + 1) = spaces := by
    have hafter : view.chars = (name ++ [0x3a]) ++ spaces := by simp [h.eq]
    rw [hafter]
    exact List.drop_left' (by simp)
  rw [h.toNat_afterColon, hdrop]
  exact h.spaces

theorem Cut.valueStart_cons {b : UInt8} {r : Str} (h : Cut view.chars name spaces (b :: r)) :
    valueStart view = StringView.position (some (name.length + 1 + spaces.length)) := by
  have hafter : view.chars = (name ++ [0x3a]) ++ (spaces ++ b :: r) := by simp [h.eq]
  have hpos : (view.find 0x3a + 1).toNat = (name ++ [0x3a]).length := by
    rw [h.toNat_afterColon, List.length_append, List.length_singleton]
  have hfind := StringView.findFirstNotOf_eq hafter hpos h.spaces (h.rest b r rfl)
  rw [List.length_append, List.length_singleton] at hfind
  exact hfind

/-- The end is found one before the value, if that is empty. -/
theorem Cut.valueEnd (h : Cut view.chars name spaces rest) :
    ∃ last, valueEnd view = StringView.position (some last) ∧
      last + 1 = name.length + 1 + spaces.length + (rest.rdropWhile isCrLf).length ∧
      last + 1 < 2 ^ 64 := by
  obtain ⟨pre, b, hline, hb, hlength⟩ := h.exists_last
  refine ⟨pre.length, ?_, hlength, ?_⟩
  · apply StringView.findLastNotOf_eq hline hb
    intro a ha
    exact (mem_crLf a).mpr (List.mem_takeWhile_imp (List.mem_reverse.mp ha))
  · have hsize := h.length
    have hprefix := (List.rdropWhile_prefix isCrLf rest).length_le
    omega

theorem Cut.lengths {b : UInt8} {r : Str} (h : Cut view.chars name spaces (b :: r)) :
    (Forgeant.valueEnd view - valueStart view + 1).toNat = ((b :: r).rdropWhile isCrLf).length ∧
      valueLength view = ((b :: r).rdropWhile isCrLf).length := by
  obtain ⟨last, hend, hlast, hbound⟩ := h.valueEnd
  have hsize := h.length
  rw [valueLength, hend, h.valueStart_cons]
  constructor
  · exact StringView.toNat_length hlast hbound
  · rw [StringView.toNat_position (by omega), StringView.toNat_position (by omega)]
    omega

/-- A line with something after the colon and the spaces is stored. -/
theorem Cut.headerCallback_cons {b : UInt8} {r : Str} (h : Cut view.chars name spaces (b :: r))
    (headers : ResponseHeaders) :
    headerCallback view headers =
      some (view.size, Assoc.emplace name ((b :: r).rdropWhile isCrLf) headers) := by
  have hsize := h.length
  rw [List.length_cons] at hsize
  obtain ⟨last, hend, hlast, hbound⟩ := h.valueEnd
  have hstart : valueStart view ≠ StringView.npos := by
    rw [h.valueStart_cons]
    exact StringView.position_ne_npos (by omega)
  have hend' : Forgeant.valueEnd view ≠ StringView.npos := by
    rw [hend]
    exact StringView.position_ne_npos hbound
  have hvalue : view.substr (valueStart view) (Forgeant.valueEnd view - valueStart view + 1) =
      some ((b :: r).rdropWhile isCrLf) := by
    have hline : view.chars = (name ++ 0x3a :: spaces) ++
        ((b :: r).rdropWhile isCrLf ++ (b :: r).rtakeWhile isCrLf) := by
      rw [List.rdropWhile_append_rtakeWhile, h.eq]
      simp
    refine StringView.substr_eq hline ?_ h.lengths.1
    rw [h.valueStart_cons, StringView.toNat_position (by omega)]
    simp only [List.length_append, List.length_cons]
    omega
  unfold headerCallback
  rw [if_pos h.found, h.key]
  show (if _ then _ else _) = _
  rw [if_pos ⟨hstart, hend'⟩, hvalue]
  rfl

theorem valueLength_nonneg {entry : Str × Str} (h : headerEntry view.chars = some entry) :
    0 ≤ valueLength view ∧
    ((valueEnd view - valueStart view + 1).toNat : Int) = valueLength view ∧
    valueLength view ≤ view.chars.length := by
  by_cases hmem : 0x3a ∈ view.chars
  · obtain ⟨name, spaces, rest, hcut⟩ := exists_cut hmem
    cases rest with
    | nil => simp [hcut.headerEntry] at h
    | cons b r =>
      obtain ⟨hunsigned, hlength⟩ := hcut.lengths
      have hprefix := (List.rdropWhile_prefix isCrLf (b :: r)).length_le
      have hline := congrArg List.length hcut.eq
      simp only [List.length_append, List.length_cons] at hline hprefix
      rw [hunsigned, hlength]
      omega
  · simp [headerEntry, hmem] at h

theorem Cut.headerCallback_nil (h : Cut view.chars name spaces []) (headers : ResponseHeaders) :
    headerCallback view headers = some (view.size, headers) := by
  unfold headerCallback
  rw [if_pos h.found, h.key]
  show (if _ then _ else _) = _
  rw [if_neg (fun hstored => hstored.1 h.valueStart_nil)]
  rfl

theorem headerCallback_eq (view : StringView) (headers : ResponseHeaders) :
    headerCallback view headers =
      some (view.size, storeEntry headers (headerEntry view.chars)) := by
  by_cases hmem : 0x3a ∈ view.chars
  · obtain ⟨name, spaces, rest, h⟩ := exists_cut hmem
    rw [h.headerEntry]
    cases rest with
    | nil => exact h.headerCallback_nil headers
    | cons b r => exact h.headerCallback_cons headers
  · unfold headerCallback
    rw [StringView.find_eq_npos hmem]
    simp [headerEntry, hmem, storeEntry]

end Positions

theorem foldlM_headerCallback (lines : List StringView) (headers : ResponseHeaders) :
    lines.foldlM (fun headers line => (headerCallback line headers).map Prod.snd) headers =
      some ((lines.map (fun line => headerEntry line.chars)).foldl storeEntry headers) := by
  induction lines generalizing headers with
  | nil => rfl
  | cons line lines ih =>
    rw [List.foldlM_cons, headerCallback_eq]
    exact ih _

theorem foldl_storeEntry (entries : List (Option (Str × Str))) (headers : ResponseHeaders) :
    entries.foldl storeEntry headers =
      (entries.filterMap id).foldl (fun m e => Assoc.emplace e.1 e.2 m) headers := by
  induction entries generalizing headers with
  | nil => rfl
  | cons entry entries ih =>
    cases entry with
    | none => exact ih headers
    | some e => exact ih (storeEntry headers (some e))

/-- Of each name the first line that gives an entry counts. -/
theorem receiveHeaders_eq (lines : List StringView) :
    receiveHeaders lines =
      some (Assoc.ofList (lines.filterMap (fun line => headerEntry line.chars))) := by
  rw [receiveHeaders, foldlM_headerCallback, foldl_storeEntry, List.filterMap_map]
  rfl

/-- A line stores its entry, trimmed, and nothing else; the length of the value
does not wrap; and a response has the first entry of each name. -/
theorem headerCallback_exact (view : StringView) (headers : ResponseHeaders)
    (lines : List StringView) :
    headerCallback view headers = some (view.size, storeEntry headers (headerEntry view.chars)) ∧
    (headerEntry view.chars = none ↔
      0x3a ∉ view.chars ∨ ∀ b ∈ afterColon view.chars, b = 0x20) ∧
    (∀ entry, headerEntry view.chars = some entry →
      0 ≤ valueLength view ∧
      ((valueEnd view - valueStart view + 1).toNat : Int) = valueLength view ∧
      valueLength view ≤ view.chars.length) ∧
    ∃ received, receiveHeaders lines = some received ∧ ∀ name,
      Assoc.find? name received =
        Assoc.find? name (lines.filterMap (fun line => headerEntry line.chars)) :=
  ⟨headerCallback_eq view headers, headerEntry_eq_none view.chars,
    fun _ => valueLength_nonneg, _, receiveHeaders_eq lines, fun name => Assoc.find?_ofList name _⟩

/-- A name without a value. -/
def bareName : StringView := ⟨str "Server:  \r\n", by decide⟩

theorem headerCallback_exact_bareName :
    0 ≤ valueLength bareName ∧
    ((valueEnd bareName - valueStart bareName + 1).toNat : Int) = valueLength bareName ∧
    valueLength bareName ≤ bareName.chars.length :=
  (headerCallback_exact bareName [] []).2.2.1 (str "Server", []) (by decide)

end Forgeant.Proofs.HeaderLines
