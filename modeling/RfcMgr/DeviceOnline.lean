import RfcMgr.KeyValueLines
import RfcMgr.RfcCommon

/-! `CheckDeviceIsOnline` of the STB build: the route flag file is polled, and the resolver file is
searched for a nameserver. What is read from the gateway file is only logged. -/

namespace RfcMgr.DeviceOnline

open KeyValueLines

inductive DeviceStatus where
  | online | offline
  deriving DecidableEq

/-! ### The route flag -/

section Route

-- whether the `k`-th look at the route flag file finds it
variable (present : Nat → Bool)

/-- The looks of `while (IpRouteCnt--)`: the count behind the loop, and the looks that were taken. -/
def pollRoute : Nat → Nat → Int × Nat
  | 0, look => (-1, look)
  | count + 1, look => if present look then (count, look + 1) else pollRoute count (look + 1)

def checkIProuteConnectivity : Bool :=
  let (ipRouteCnt, look) := pollRoute present 5 0
  !(ipRouteCnt == 0 && present look)

end Route

/-! ### The resolver file -/

def nameserver : Str := "nameserver".toList

/-- What `fgets` with a buffer of `size` bytes reads next. -/
def fgets (size : Nat) (text : Str) : Str :=
  let room := text.take (size - 1)
  room.takeWhile (· != '\n') ++ (room.dropWhile (· != '\n')).take 1

/-- The loop of `isDnsResolve`: the first buffer that the word is found in. Every pass reads a byte, so
the length of the text bounds the passes. -/
def findNameserver : Nat → Str → Option Str
  | 0, _ => none
  | passes + 1, text =>
      if text = [] then none
      else
        let tbuff := fgets 80 text
        if contains (cStr tbuff) nameserver then some (cStr tbuff)
        else findNameserver passes (text.drop tbuff.length)

/-- There is more on the line behind the first `nameserver` of the buffer. -/
def hasMore (tbuff : Str) : Bool :=
  match tbuff.dropInfix? nameserver with
  | some (_, c :: _) => c != '\n'
  | _ => false

/-- A file that does not open is `none`. -/
def isDnsResolve (file : Option Str) : Bool :=
  match file with
  | none => false
  | some text => ((findNameserver text.length text).map hasMore).getD false

/-- The status, and whether `MAINT_RFC_ERROR` is sent. -/
def checkDeviceIsOnline (present : Nat → Bool) (resolver : Option Str) : DeviceStatus × Bool :=
  if checkIProuteConnectivity present then
    if isDnsResolve resolver then (.online, false) else (.offline, false)
  else (.offline, true)

/-! ### What is to be reported -/

/-- The flag is found in one of the five polls. -/
def Seen (present : Nat → Bool) : Prop := ∃ k < 5, present k = true

/-- The word `nameserver`, and behind it something that is not blank. -/
def NamesServer (line : Str) : Prop :=
  ∃ front behind, line = front ++ nameserver ++ behind ∧
    (∀ c ∈ front.getLast?, c.isWhitespace = true) ∧ (∃ c ∈ behind.head?, c.isWhitespace = true) ∧
    ∃ c ∈ behind, c.isWhitespace = false

def Resolves (resolver : Option Str) : Prop := ∃ line ∈ getLines (resolver.getD []), NamesServer line

/-- The pieces that a file is read in. -/
def pieces : Nat → Str → List Str
  | 0, _ => []
  | passes + 1, text =>
      if text = [] then []
      else fgets 80 text :: pieces passes (text.drop (fgets 80 text).length)

/-- There is more than a line break behind the first `nameserver` in the first piece that has one. -/
def FirstHit (resolver : Option Str) : Prop :=
  ∃ text earlier tbuff later, resolver = some text ∧
    (pieces text.length text).map cStr = earlier ++ tbuff :: later ∧
    (∀ other ∈ earlier, ¬ nameserver <:+: other) ∧
    ∃ front c behind, tbuff = front ++ nameserver ++ c :: behind ∧ c ≠ '\n' ∧
      ∀ front' behind', tbuff = front' ++ nameserver ++ behind' → front.length ≤ front'.length

/-- When the report is right: by the poll that first finds the flag, and whether it is still there at the
look behind the fifth poll. -/
structure ReportsRight (present : Nat → Bool) (resolver : Option Str) : Prop where
  early : (∃ k < 4, present k = true) → (FirstHit resolver ↔ Resolves resolver)
  gone : (∀ k < 4, present k = false) → present 4 = true → present 5 = false →
    (FirstHit resolver ↔ Resolves resolver)
  refused : (∀ k < 4, present k = false) → present 4 = true → present 5 = true → ¬ Resolves resolver
  never : ¬ Seen present → ¬ FirstHit resolver

/-! ### The route flag -/

theorem pollRoute_spec (present : Nat → Bool) (count look : Nat) :
    (∃ k < count, (∀ j < k, present (look + j) = false) ∧ present (look + k) = true ∧
      pollRoute present count look = ((count : Int) - 1 - k, look + k + 1)) ∨
    (∀ k < count, present (look + k) = false) ∧ pollRoute present count look = (-1, look + count) := by
  induction count generalizing look with
  | zero => exact Or.inr ⟨fun k hk => absurd hk (Nat.not_lt_zero k), rfl⟩
  | succ count ih =>
      cases hlook : present look with
      | true =>
          refine Or.inl ⟨0, Nat.succ_pos count, fun j hj => absurd hj (Nat.not_lt_zero j), hlook, ?_⟩
          simp [pollRoute, hlook]
      | false =>
          have hpoll : pollRoute present (count + 1) look = pollRoute present count (look + 1) := by
            simp [pollRoute, hlook]
          rw [hpoll]
          obtain ⟨k, hk, hbefore, hfound, heq⟩ | ⟨hnone, heq⟩ := ih (look + 1)
          · refine Or.inl ⟨k + 1, by omega, ?_, ?_, ?_⟩
            · intro j hj
              cases j with
              | zero => exact hlook
              | succ j =>
                  rw [show look + (j + 1) = look + 1 + j by omega]
                  exact hbefore j (by omega)
            · rw [show look + (k + 1) = look + 1 + k by omega]
              exact hfound
            · rw [heq]
              refine Prod.ext ?_ (by omega)
              push_cast
              omega
          · refine Or.inr ⟨?_, ?_⟩
            · intro k hk
              cases k with
              | zero => exact hlook
              | succ k =>
                  rw [show look + (k + 1) = look + 1 + k by omega]
                  exact hnone k (by omega)
            · rw [heq, show look + 1 + count = look + (count + 1) by omega]

/-- The route is refused only when the fifth poll is the first to find the flag, and it is still there
right afterwards. -/
theorem checkIProuteConnectivity_eq_false_iff (present : Nat → Bool) :
    checkIProuteConnectivity present = false ↔
      (∀ k < 4, present k = false) ∧ present 4 = true ∧ present 5 = true := by
  unfold checkIProuteConnectivity
  obtain ⟨k, hk, hbefore, hfound, heq⟩ | ⟨hnone, heq⟩ := pollRoute_spec present 5 0
  · simp only [Nat.zero_add] at hbefore hfound heq
    simp only [heq, Bool.not_eq_false', Bool.and_eq_true, beq_iff_eq]
    constructor
    · rintro ⟨hcount, hstill⟩
      obtain rfl : k = 4 := by omega
      exact ⟨hbefore, hfound, hstill⟩
    · rintro ⟨hearlier, -, hstill⟩
      obtain rfl : k = 4 := by
        by_contra hne
        have hmissing := hearlier k (by omega)
        rw [hfound] at hmissing
        cases hmissing
      exact ⟨by omega, hstill⟩
  · simp only [Nat.zero_add] at hnone heq
    simp only [heq]
    refine iff_of_false (by simp) ?_
    rintro ⟨-, hfound, -⟩
    rw [hnone 4 (by omega)] at hfound
    cases hfound

/-! ### The resolver file -/

theorem findNameserver_eq (passes : Nat) (text : Str) :
    findNameserver passes text =
      ((pieces passes text).map cStr).find? fun tbuff => contains tbuff nameserver := by
  induction passes generalizing text with
  | zero => rfl
  | succ passes ih =>
      rw [findNameserver, pieces]
      split
      · rfl
      · rw [List.map_cons, List.find?_cons]
        simp only
        split
        next hfound => rw [hfound]
        next hfound =>
          rw [Bool.not_eq_true] at hfound
          rw [hfound, ih]

theorem hasMore_iff (tbuff : Str) :
    hasMore tbuff = true ↔ ∃ front c behind, tbuff = front ++ nameserver ++ c :: behind ∧ c ≠ '\n' ∧
      ∀ front' behind', tbuff = front' ++ nameserver ++ behind' → front.length ≤ front'.length := by
  have hsplit : hasMore tbuff = true ↔
      ∃ front c behind, tbuff.dropInfix? nameserver = some (front, c :: behind) ∧ c ≠ '\n' := by
    unfold hasMore
    split
    next front c behind hdrop =>
      rw [hdrop]
      simp [bne_iff_ne]
    next hdrop =>
      refine iff_of_false Bool.false_ne_true ?_
      rintro ⟨front, c, behind, h, -⟩
      exact hdrop front c behind h
  rw [hsplit]
  refine exists_congr fun front => exists_congr fun c => exists_congr fun behind => ?_
  rw [dropInfix?_eq_some, and_assoc]
  exact and_congr_right fun _ => and_comm

theorem isDnsResolve_iff (resolver : Option Str) : isDnsResolve resolver = true ↔ FirstHit resolver := by
  cases resolver with
  | none =>
      refine iff_of_false Bool.false_ne_true ?_
      rintro ⟨text, -, -, -, h, -⟩
      cases h
  | some text =>
      have hfound : isDnsResolve (some text) = true ↔
          ∃ tbuff, findNameserver text.length text = some tbuff ∧ hasMore tbuff = true := by
        rw [isDnsResolve]
        cases findNameserver text.length text with
        | none => simp
        | some tbuff => simp
      rw [hfound, findNameserver_eq]
      constructor
      · rintro ⟨tbuff, hfind, hmore⟩
        obtain ⟨-, earlier, later, hpieces, hearlier⟩ := List.find?_eq_some_iff_append.mp hfind
        refine ⟨text, earlier, tbuff, later, rfl, hpieces, ?_, (hasMore_iff tbuff).mp hmore⟩
        intro other hother hinfix
        have hnot := hearlier other hother
        simp [contains, hinfix] at hnot
      · rintro ⟨text', earlier, tbuff, later, htext, hpieces, hearlier, hmore⟩
        obtain rfl := Option.some.inj htext
        refine ⟨tbuff, ?_, (hasMore_iff tbuff).mpr hmore⟩
        obtain ⟨front, c, behind, hsplit, -⟩ := hmore
        refine List.find?_eq_some_iff_append.mpr
          ⟨decide_eq_true ⟨front, c :: behind, hsplit.symm⟩, earlier, later, hpieces, ?_⟩
        intro other hother
        simpa [contains] using hearlier other hother

theorem online_iff (present : Nat → Bool) (resolver : Option Str) :
    (checkDeviceIsOnline present resolver).1 = .online ↔
      checkIProuteConnectivity present = true ∧ FirstHit resolver := by
  rw [← isDnsResolve_iff, checkDeviceIsOnline]
  split
  next hroute =>
    split
    next hdns => exact iff_of_true rfl ⟨hroute, hdns⟩
    next hdns => exact iff_of_false (by simp) fun h => hdns h.2
  next hroute => exact iff_of_false (by simp) fun h => hroute h.1

/-- **The report**: online for exactly the devices that have seen the flag and can resolve names, just
when the fifth poll and the first mention of a nameserver do not get in the way. -/
theorem checkDeviceIsOnline_iff (present : Nat → Bool) (resolver : Option Str) :
    ((checkDeviceIsOnline present resolver).1 = .online ↔ Seen present ∧ Resolves resolver) ↔
      ReportsRight present resolver := by
  have hnone : (∀ k < 4, present k = false) ↔ ¬ ∃ k < 4, present k = true := by
    simp only [not_exists, not_and, Bool.not_eq_true]
  have hseen : Seen present ↔ (∃ k < 4, present k = true) ∨ present 4 = true := by
    unfold Seen
    rw [Nat.exists_lt_succ_right]
  have hroute : checkIProuteConnectivity present = true ↔
      ¬ ((¬ ∃ k < 4, present k = true) ∧ present 4 = true ∧ present 5 = true) := by
    rw [← hnone, ← checkIProuteConnectivity_eq_false_iff, Bool.not_eq_false]
  have hright : ReportsRight present resolver ↔
      ((∃ k < 4, present k = true) → (FirstHit resolver ↔ Resolves resolver)) ∧
      ((¬ ∃ k < 4, present k = true) → present 4 = true → ¬ present 5 = true →
        (FirstHit resolver ↔ Resolves resolver)) ∧
      ((¬ ∃ k < 4, present k = true) → present 4 = true → present 5 = true → ¬ Resolves resolver) ∧
      (¬ Seen present → ¬ FirstHit resolver) := by
    rw [← hnone, Bool.not_eq_true]
    exact ⟨fun h => ⟨h.early, h.gone, h.refused, h.never⟩, fun h => ⟨h.1, h.2.1, h.2.2.1, h.2.2.2⟩⟩
  rw [online_iff, hroute, hright, hseen]
  generalize (∃ k < 4, present k = true) = early
  by_cases hearly : early
  · simp [hearly]
  · by_cases hfifth : present 4 = true
    · by_cases hstill : present 5 = true
      · simp [hearly, hfifth, hstill]
      · simp [hearly, hfifth, hstill]
    · simp [hearly, hfifth]

/-! ### Ordinary resolver files -/

/-- Every line fits into the buffer and has no NUL, and one with `nameserver` in it names a server. -/
structure Ordinary (text : Str) : Prop where
  fits : ∀ line ∈ getLines text, line.length < 79
  nulFree : ∀ line ∈ getLines text, Char.ofNat 0 ∉ line
  named : ∀ line ∈ getLines text, nameserver <:+: line → NamesServer line

/-- A piece of an ordinary file is a line, with its line break if it has one. -/
def IsPiece (piece line : Str) : Prop := piece = line ++ ['\n'] ∨ piece = line

theorem fgets_line {line : Str} (h : '\n' ∉ line) (hlen : line.length < 79) (rest : Str) :
    fgets 80 (line ++ '\n' :: rest) = line ++ ['\n'] := by
  obtain ⟨room, hroom⟩ : ∃ room, 79 - line.length = room + 1 := ⟨78 - line.length, by omega⟩
  have htake : (line ++ '\n' :: rest).take 79 = line ++ '\n' :: rest.take room := by
    rw [List.take_append, List.take_of_length_le (by omega), hroom, List.take_succ_cons]
  show ((line ++ '\n' :: rest).take 79).takeWhile (· != '\n') ++
    (((line ++ '\n' :: rest).take 79).dropWhile (· != '\n')).take 1 = _
  rw [htake, takeWhile_append_stop h, List.dropWhile_append_of_pos (bne_of_not_mem h)]
  simp

theorem fgets_last {text : Str} (h : '\n' ∉ text) (hlen : text.length < 79) : fgets 80 text = text := by
  show (text.take 79).takeWhile (· != '\n') ++ ((text.take 79).dropWhile (· != '\n')).take 1 = _
  rw [List.take_of_length_le (by omega), takeWhile_of_not_mem h,
    List.dropWhile_eq_nil_iff.mpr (bne_of_not_mem h), List.take_nil, List.append_nil]

theorem pieces_nil (passes : Nat) : pieces passes [] = [] := by
  cases passes <;> rfl

theorem getLines_last {text : Str} (h : '\n' ∉ text) (hne : text ≠ []) : getLines text = [text] := by
  rw [getLines, List.splitOn_eq_singleton h]
  simp [hne]

theorem exists_of_forall₂ {α β : Type*} {R : α → β → Prop} {as : List α} {bs : List β}
    (h : List.Forall₂ R as bs) : ∀ a ∈ as, ∃ b ∈ bs, R a b := by
  induction h with
  | nil => exact fun a ha => absurd ha List.not_mem_nil
  | cons hhead _ ih =>
      intro a ha
      obtain rfl | ha := List.mem_cons.mp ha
      · exact ⟨_, List.mem_cons_self, hhead⟩
      · obtain ⟨b, hb, hab⟩ := ih a ha
        exact ⟨b, List.mem_cons_of_mem _ hb, hab⟩

theorem pieces_ordinary (passes : Nat) {text : Str} (hpasses : text.length ≤ passes)
    (hfits : ∀ line ∈ getLines text, line.length < 79) :
    List.Forall₂ IsPiece (pieces passes text) (getLines text) := by
  induction passes generalizing text with
  | zero =>
      obtain rfl : text = [] := List.length_eq_zero_iff.mp (by omega)
      exact .nil
  | succ passes ih =>
      by_cases hempty : text = []
      · subst hempty
        exact .nil
      · rw [pieces, if_neg hempty]
        by_cases hbreak : '\n' ∈ text
        · obtain ⟨line, rest, rfl, hline⟩ := List.eq_append_cons_of_mem hbreak
          rw [getLines_cons hline] at hfits ⊢
          have hlen := hfits line List.mem_cons_self
          rw [fgets_line hline hlen]
          have hjoin : line ++ '\n' :: rest = line ++ ['\n'] ++ rest := List.append_cons line '\n' rest
          have hdrop : (line ++ '\n' :: rest).drop (line ++ ['\n']).length = rest := by
            rw [hjoin, List.drop_left]
          rw [hdrop]
          refine .cons (Or.inl rfl) (ih ?_ fun l hl => hfits l (List.mem_cons_of_mem line hl))
          rw [List.length_append, List.length_cons] at hpasses
          omega
        · rw [getLines_last hbreak hempty] at hfits ⊢
          rw [fgets_last hbreak (hfits text (List.mem_singleton.mpr rfl)), List.drop_length, pieces_nil]
          exact .cons (Or.inr rfl) .nil

theorem IsPiece.infix_iff {piece line : Str} (h : IsPiece piece line) :
    nameserver <:+: piece ↔ nameserver <:+: line := by
  have hne : nameserver ≠ [] := List.cons_ne_nil _ _
  have hend : nameserver.getLast? = some 'r' := by rfl
  obtain h | h := h
  · rw [h, List.infix_concat_iff, or_iff_right]
    rintro ⟨front, hsuffix⟩
    have hlast := congrArg List.getLast? hsuffix
    rw [List.getLast?_append_of_ne_nil front hne, List.getLast?_concat, hend] at hlast
    exact absurd (Option.some.inj hlast) (by decide)
  · rw [h]

/-- A mention with something behind it on the line makes the first mention a hit. -/
theorem IsPiece.hit {piece line front behind : Str} {c : Char} (h : IsPiece piece line)
    (hline : '\n' ∉ line) (hmention : line = front ++ nameserver ++ c :: behind) :
    ∃ front c behind, piece = front ++ nameserver ++ c :: behind ∧ c ≠ '\n' ∧
      ∀ front' behind', piece = front' ++ nameserver ++ behind' → front.length ≤ front'.length := by
  have hinfix : nameserver <:+: piece := h.infix_iff.mpr ⟨front, c :: behind, hmention.symm⟩
  cases hdrop : piece.dropInfix? nameserver with
  | none => exact absurd hinfix (dropInfix?_go_eq_none hdrop)
  | some found =>
      obtain ⟨first, tail⟩ := found
      obtain ⟨hpiece, hfirst⟩ := dropInfix?_eq_some.mp hdrop
      have hle : first.length ≤ front.length := by
        obtain h | h := h
        · exact hfirst front (c :: behind ++ ['\n']) (by rw [h, hmention, List.append_assoc])
        · exact hfirst front (c :: behind) (h.trans hmention)
      have hlen : (first ++ nameserver).length < line.length := by
        rw [hmention, List.length_append, List.length_append, List.length_append, List.length_cons]
        omega
      have hsame : ∀ n < line.length, piece[n]? = (line)[n]? := by
        intro n hn
        obtain h | h := h
        · rw [h, List.getElem?_append_left hn]
        · rw [h]
      have hnext := hsame _ hlen
      rw [hpiece, List.getElem?_append_right le_rfl, Nat.sub_self] at hnext
      cases tail with
      | nil =>
          rw [List.getElem?_nil, List.getElem?_eq_getElem hlen] at hnext
          cases hnext
      | cons next tail =>
          refine ⟨first, next, tail, hpiece, ?_, hfirst⟩
          rintro rfl
          exact hline (List.mem_of_getElem? hnext.symm)

theorem IsPiece.cStr_eq {piece line : Str} (h : IsPiece piece line) (hline : Char.ofNat 0 ∉ line) :
    cStr piece = piece := by
  apply cStr_of_not_mem
  obtain h | h := h
  · rw [h, List.mem_append, not_or]
    exact ⟨hline, by decide⟩
  · rwa [h]

/-- On an ordinary file the first mention decides rightly. -/
theorem firstHit_iff_of_ordinary {text : Str} (h : Ordinary text) :
    FirstHit (some text) ↔ Resolves (some text) := by
  have hpieces := pieces_ordinary text.length le_rfl h.fits
  constructor
  · rintro ⟨text', earlier, tbuff, later, htext, hsplit, -, front, c, behind, htbuff, -⟩
    obtain rfl := Option.some.inj htext
    obtain ⟨piece, hpiece, rfl⟩ := List.mem_map.mp
      (hsplit ▸ List.mem_append_right earlier List.mem_cons_self)
    obtain ⟨line, hline, his⟩ := exists_of_forall₂ hpieces piece hpiece
    rw [his.cStr_eq (h.nulFree line hline)] at htbuff
    have hmention : nameserver <:+: line := his.infix_iff.mp ⟨front, c :: behind, htbuff.symm⟩
    exact ⟨line, hline, h.named line hline hmention⟩
  · rintro ⟨line, hline, front, behind, hserver, -⟩
    obtain ⟨piece, hpiece, his⟩ : ∃ piece ∈ pieces text.length text, IsPiece piece line :=
      exists_of_forall₂ hpieces.flip line hline
    rw [← isDnsResolve_iff, isDnsResolve]
    cases hfind : findNameserver text.length text with
    | none =>
        rw [findNameserver_eq] at hfind
        have hnot := List.find?_eq_none.mp hfind (cStr piece) (List.mem_map_of_mem hpiece)
        rw [his.cStr_eq (h.nulFree line hline)] at hnot
        exact absurd (decide_eq_true (his.infix_iff.mpr ⟨front, behind, hserver.symm⟩)) hnot
    | some tbuff =>
        rw [findNameserver_eq] at hfind
        obtain ⟨first, hfirst, rfl⟩ := List.mem_map.mp (List.mem_of_find?_eq_some hfind)
        obtain ⟨line', hline', his'⟩ := exists_of_forall₂ hpieces first hfirst
        have hcontains := List.find?_some hfind
        have hmention : nameserver <:+: cStr first := of_decide_eq_true hcontains
        rw [his'.cStr_eq (h.nulFree line' hline')] at hmention
        obtain ⟨front', behind', hserver', -, ⟨c, hc, -⟩, -⟩ :=
          h.named line' hline' (his'.infix_iff.mp hmention)
        obtain ⟨rest, rfl⟩ := List.head?_eq_some_iff.mp hc
        show hasMore (cStr first) = true
        rw [his'.cStr_eq (h.nulFree line' hline'), hasMore_iff]
        exact his'.hit (not_mem_of_mem_getLines hline') hserver'

/-- The flag never shows up, and the device is online. -/
theorem not_online_neverSeen :
    ¬ ((checkDeviceIsOnline (fun _ => false) (some "nameserver 8.8.8.8\n".toList)).1 = .online ↔
      Seen (fun _ => false) ∧ Resolves (some "nameserver 8.8.8.8\n".toList)) := by
  have honline : (checkDeviceIsOnline (fun _ => false) (some "nameserver 8.8.8.8\n".toList)).1 =
      .online := by decide
  intro h
  obtain ⟨k, -, hseen⟩ := (h.mp honline).1
  cases hseen

end RfcMgr.DeviceOnline
