import RfcMgr.KeyValueLines
import RfcMgr.RefusedWrites
import Mathlib.Data.List.DropRight

/-! The hash that `updateHashAndTimeInDB` takes from the header of a response, and where it goes in the
two builds. -/

namespace RfcMgr

open KeyValueLines

/-- Some xconf have the lowercase one. -/
def hashKeys : List Str := ["configSetHash:".toList, "configsethash:".toList]

/-- The header names the hash once, both spellings counted, and goes on with `rest`. -/
def NamesOnce (header rest : Str) : Prop :=
  ∃ front, ∃ key ∈ hashKeys, header = front ++ key ++ rest ∧
    ∀ front' rest', ∀ key' ∈ hashKeys, header = front' ++ key' ++ rest' →
      front' = front ∧ key' = key ∧ rest' = rest

inductive LineEnding where
  | crlf
  | lf

/-- All line endings are of one kind, which the byte in front of the LF tells. -/
def UniformlyEnded (header : Str) : LineEnding → Prop
  | .crlf => ∀ front back, header = front ++ '\n' :: back → front.getLast? = some '\r'
  | .lf => ∀ front back, header = front ++ '\n' :: back → front.getLast? ≠ some '\r'

/-- To the LF that ends the line, or to the end of the block. -/
def lineOf (rest : Str) : Str := rest.takeWhile (· != '\n')

/-- `text` is the line without the blanks at its two ends. -/
def Trims (line text : Str) : Prop :=
  ∃ left right, line = left ++ text ++ right ∧ (∀ c ∈ left ++ right, isBlank c = true) ∧
    (∀ c, text.head? = some c → isBlank c = false) ∧
    ∀ c, text.getLast? = some c → isBlank c = false

section Trimming

theorem trims_trimmed (line : Str) : Trims line ((line.dropWhile isBlank).rdropWhile isBlank) := by
  refine ⟨line.takeWhile isBlank, (line.dropWhile isBlank).rtakeWhile isBlank, ?_, ?_, ?_, ?_⟩
  · rw [List.append_assoc, List.rdropWhile_append_rtakeWhile, List.takeWhile_append_dropWhile]
  · intro c hc
    cases List.mem_append.mp hc with
    | inl hleft => exact List.mem_takeWhile_imp hleft
    | inr hright => exact List.mem_rtakeWhile_imp hright
  · intro c hc
    have hstop := List.head?_dropWhile_not isBlank line
    obtain ⟨back, hback⟩ := List.rdropWhile_prefix isBlank (line.dropWhile isBlank)
    rw [← hback, List.head?_append, hc] at hstop
    exact hstop
  · intro c hc
    have hne : (line.dropWhile isBlank).rdropWhile isBlank ≠ [] := List.ne_nil_of_mem
      (List.mem_of_getLast? hc)
    have hlast := List.rdropWhile_last_not isBlank _ hne
    rw [List.getLast?_eq_some_getLast hne] at hc
    rw [Option.some.inj hc] at hlast
    exact eq_false_of_ne_true hlast

/-- The trimmed text is no other. -/
theorem Trims.eq {line text : Str} (h : Trims line text) :
    text = (line.dropWhile isBlank).rdropWhile isBlank := by
  obtain ⟨left, right, rfl, hends, hhead, hlast⟩ := h
  have hleft : ∀ c ∈ left, isBlank c = true := fun c hc => hends c (List.mem_append_left _ hc)
  have hright : ∀ c ∈ right.reverse, isBlank c = true := fun c hc =>
    hends c (List.mem_append_right _ (List.mem_reverse.mp hc))
  rw [List.append_assoc, List.dropWhile_append_of_pos hleft]
  have hfront : text ≠ [] → (text ++ right).dropWhile isBlank = text ++ right := by
    intro hne
    obtain ⟨c, rest, rfl⟩ := List.exists_cons_of_ne_nil hne
    rw [List.cons_append, List.dropWhile_cons_of_neg (by rw [hhead c rfl]; exact Bool.false_ne_true)]
  have hback : (text ++ right).rdropWhile isBlank = text := by
    rw [List.rdropWhile, List.reverse_append, List.dropWhile_append_of_pos hright]
    cases text using List.reverseRecOn with
    | nil => rfl
    | append_singleton rest c =>
        rw [List.reverse_append, List.reverse_singleton, List.singleton_append,
          List.dropWhile_cons_of_neg (by
            rw [hlast c List.getLast?_concat]
            exact Bool.false_ne_true),
          List.reverse_cons, List.reverse_reverse]
  by_cases hne : text = []
  · subst hne
    rw [List.nil_append] at hback ⊢
    have hblank := List.rdropWhile_eq_nil_iff.mp hback
    rw [List.dropWhile_eq_nil_iff.mpr hblank, List.rdropWhile_nil]
  · rw [hfront hne, hback]

theorem Trims.append {line text blanks : Str} (h : Trims line text)
    (hblanks : ∀ c ∈ blanks, isBlank c = true) : Trims (line ++ blanks) text := by
  obtain ⟨left, right, rfl, hends, hhead, hlast⟩ := h
  refine ⟨left, right ++ blanks, by simp only [List.append_assoc], ?_, hhead, hlast⟩
  intro c hc
  rw [← List.append_assoc] at hc
  cases List.mem_append.mp hc with
  | inl hc => exact hends c hc
  | inr hc => exact hblanks c hc

end Trimming

section TheLine

theorem beforeFirst_eq_none {text target : Str} (h : ¬ target <:+: text) :
    beforeFirst text target = none := by
  rw [beforeFirst, Option.map_eq_none_iff]
  cases hdrop : text.dropInfix? target with
  | none => rfl
  | some parts =>
      have hsplit := (dropInfix?_eq_some.mp hdrop).1
      exact absurd ⟨parts.1, parts.2, hsplit.symm⟩ h

/-- The first line ending of a text, when no LF comes before it. -/
theorem beforeFirst_line {line cr : Str} (hline : '\n' ∉ line ++ cr) (back : Str) :
    beforeFirst (line ++ cr ++ '\n' :: back) (cr ++ ['\n']) = some line := by
  have hdrop : (line ++ cr ++ '\n' :: back).dropInfix? (cr ++ ['\n']) = some (line, back) := by
    apply dropInfix?_eq_some.mpr
    refine ⟨by simp only [List.append_assoc, List.singleton_append], ?_⟩
    intro front' back' h
    by_contra hlt
    have hlong : front' ++ (cr ++ ['\n']) <+: line ++ cr := by
      refine List.prefix_of_prefix_length_le ⟨back', h.symm⟩ ⟨'\n' :: back, rfl⟩ ?_
      simp only [List.length_append, List.length_singleton]
      omega
    have hmem : '\n' ∈ front' ++ (cr ++ ['\n']) := by simp
    exact hline (hlong.subset hmem)
  rw [beforeFirst, hdrop, Option.map_some]

theorem lineOf_of_not_mem {rest : Str} (h : '\n' ∉ rest) : lineOf rest = rest :=
  takeWhile_of_not_mem h

theorem lineOf_append {line : Str} (h : '\n' ∉ line) (back : Str) :
    lineOf (line ++ '\n' :: back) = line := takeWhile_append_stop h back

/-- The line that `updateHashAndTimeInDB` cuts out. -/
def cutLine (rest : Str) : Str :=
  ((beforeFirst rest "\r\n".toList).or (beforeFirst rest "\n".toList)).getD rest

theorem not_infix_of_not_mem {rest target : Str} (h : '\n' ∉ rest) (htarget : '\n' ∈ target) :
    ¬ target <:+: rest := fun hpart => h (List.IsInfix.subset hpart htarget)

/-- Without an LF the block ends the line. -/
theorem cutLine_of_not_mem {rest : Str} (h : '\n' ∉ rest) : cutLine rest = lineOf rest := by
  rw [cutLine, beforeFirst_eq_none (not_infix_of_not_mem h (by simp)),
    beforeFirst_eq_none (not_infix_of_not_mem h (by simp)), lineOf_of_not_mem h]
  rfl

theorem cutLine_lf {rest : Str} (h : ¬ "\r\n".toList <:+: rest) : cutLine rest = lineOf rest := by
  by_cases hmem : '\n' ∈ rest
  · obtain ⟨line, back, rfl, hline⟩ := List.eq_append_cons_of_mem hmem
    have hcut : beforeFirst (line ++ '\n' :: back) "\n".toList = some line := by
      have hfirst := @beforeFirst_line line [] (by rwa [List.append_nil]) back
      rwa [List.append_nil] at hfirst
    rw [cutLine, beforeFirst_eq_none h, hcut, lineOf_append hline]
    rfl
  · exact cutLine_of_not_mem hmem

theorem cutLine_crlf {line : Str} (h : '\n' ∉ line) (back : Str) :
    cutLine (line ++ '\r' :: '\n' :: back) = line := by
  have hmem : '\n' ∉ line ++ ['\r'] := by
    rw [List.mem_append, not_or]
    exact ⟨h, by simp⟩
  have hcut : beforeFirst (line ++ '\r' :: '\n' :: back) "\r\n".toList = some line := by
    have hfirst := beforeFirst_line hmem back
    rwa [List.append_assoc] at hfirst
  rw [cutLine, hcut]
  rfl

/-- **The line that is cut out, up to blanks at its ends**: the CR of a CRLF goes with them. -/
theorem trims_cutLine {front key rest : Str} {ending : LineEnding} (hkey : key ∈ hashKeys)
    (h : UniformlyEnded (front ++ key ++ rest) ending) :
    Trims (lineOf rest) (((cutLine rest).dropWhile isBlank).rdropWhile isBlank) := by
  cases ending with
  | lf =>
      have hnone : ¬ "\r\n".toList <:+: rest := by
        rintro ⟨line, back, rfl⟩
        refine h (front ++ key ++ line ++ ['\r']) back ?_ List.getLast?_concat
        simp
      rw [cutLine_lf hnone]
      exact trims_trimmed _
  | crlf =>
      by_cases hmem : '\n' ∈ rest
      · obtain ⟨line, back, rfl, hline⟩ := List.eq_append_cons_of_mem hmem
        have hcr : (front ++ key ++ line).getLast? = some '\r' :=
          h _ back (by simp only [List.append_assoc])
        -- the names end with a colon, so the CR is on the line
        cases line using List.reverseRecOn with
        | nil =>
            have hcolon : key.getLast? = some ':' := by
              revert hkey
              simp only [hashKeys, List.mem_cons, List.not_mem_nil, or_false]
              rintro (rfl | rfl)
              · rfl
              · rfl
            rw [List.append_nil, List.getLast?_append, hcolon] at hcr
            cases hcr
        | append_singleton line c =>
            rw [← List.append_assoc, List.getLast?_concat] at hcr
            obtain rfl : c = '\r' := Option.some.inj hcr
            have hshort : '\n' ∉ line := fun hin => hline (List.mem_append_left _ hin)
            rw [lineOf_append hline, List.append_assoc, List.singleton_append, cutLine_crlf hshort]
            exact (trims_trimmed line).append (by simp [isBlank])
      · rw [cutLine_of_not_mem hmem]
        exact trims_trimmed _

end TheLine

section TheName

theorem afterFirst_eq_none {text target : Str} (h : ¬ target <:+: text) :
    afterFirst text target = none := by
  have hnone := beforeFirst_eq_none h
  rw [beforeFirst, Option.map_eq_none_iff] at hnone
  rw [afterFirst, hnone, Option.map_none]

theorem configSetHashValue_eq_none {header : Str} (h : ∀ key ∈ hashKeys, ¬ key <:+: header) :
    configSetHashValue header = none := by
  rw [configSetHashValue, afterFirst_eq_none (h _ (by simp [hashKeys])),
    afterFirst_eq_none (h _ (by simp [hashKeys]))]
  rfl

/-- The one occurrence is found under its own spelling, and not under the other. -/
theorem NamesOnce.afterFirst {header rest : Str} (h : NamesOnce header rest) :
    (afterFirst header "configSetHash:".toList).or (afterFirst header "configsethash:".toList) =
      some rest := by
  obtain ⟨front, key, hkey, hheader, honly⟩ := h
  have hfound : RfcMgr.afterFirst header key = some rest := by
    have hdrop : header.dropInfix? key = some (front, rest) := by
      apply dropInfix?_eq_some.mpr
      refine ⟨hheader, fun front' rest' h' => ?_⟩
      rw [(honly front' rest' key hkey h').1]
    rw [RfcMgr.afterFirst, hdrop, Option.map_some]
  have hother : ∀ key' ∈ hashKeys, key' ≠ key → RfcMgr.afterFirst header key' = none := by
    intro key' hkey' hne
    apply afterFirst_eq_none
    rintro ⟨front', rest', h'⟩
    exact hne (honly front' rest' key' hkey' h'.symm).2.1
  simp only [hashKeys, List.mem_cons, List.not_mem_nil, or_false] at hkey
  cases hkey with
  | inl hkey => rw [← hkey, hfound, Option.some_or]
  | inr hkey =>
      rw [hother _ (by simp [hashKeys]) (by rw [hkey]; exact toList_ne (by simp)), Option.none_or,
        ← hkey, hfound]

/-- **The value that is read**: the line of the name, trimmed. -/
theorem NamesOnce.configSetHashValue {header rest : Str} {ending : LineEnding}
    (h : NamesOnce header rest) (hended : UniformlyEnded header ending) :
    ∃ text, Trims (lineOf rest) text ∧ configSetHashValue header = some text := by
  have hread : RfcMgr.configSetHashValue header =
      some (((cutLine rest).dropWhile isBlank).rdropWhile isBlank) := by
    rw [RfcMgr.configSetHashValue, h.afterFirst]
    rfl
  obtain ⟨front, key, hkey, rfl, -⟩ := h
  exact ⟨_, trims_cutLine hkey hended, hread⟩

end TheName

namespace Rdkb

/-- `bkup_hash`, the flag, and the two files under `/tmp/RFC`. -/
structure HashFiles where
  bkupHash : Str
  isRebootRequired : Bool
  hashValue : Option Str
  timeValue : Option Str

/-- The `RDKB_SUPPORT` branch: a file that does not open keeps its content. -/
def updateHashInDB (opens : Str → Bool) (configSetHash : Str) (st : HashFiles) : HashFiles :=
  { st with
    hashValue := if opens "/tmp/RFC/.hashValue".toList then some configSetHash else st.hashValue
    isRebootRequired :=
      if stringCaseCompare st.bkupHash configSetHash then false else st.isRebootRequired }

def updateTimeInDB (opens : Str → Bool) (timestampString : Str) (st : HashFiles) : HashFiles :=
  { st with
    timeValue := if opens "/tmp/RFC/.timeValue".toList then some timestampString else st.timeValue }

def updateHashAndTimeInDB (opens : Str → Bool) (now header : Str) (st : HashFiles) : HashFiles :=
  let st := match configSetHashValue header with
    | some hash => updateHashInDB opens hash st
    | none => st
  updateTimeInDB opens now st

end Rdkb

section TheUpdate

/-- What the update goes through in a build, with where it leaves the flag and the stored hash. -/
structure HashStore (σ : Type) where
  updateHashInDB : Str → σ → σ
  updateTimeInDB : σ → σ
  storedHash : σ → Option Str
  bkupHash : σ → Str
  isRebootRequired : σ → Bool
  storedHash_time : ∀ st, storedHash (updateTimeInDB st) = storedHash st
  isRebootRequired_time : ∀ st, isRebootRequired (updateTimeInDB st) = isRebootRequired st
  isRebootRequired_hash : ∀ hash st, isRebootRequired (updateHashInDB hash st) =
    if stringCaseCompare (bkupHash st) hash then false else isRebootRequired st

def deviceStore (env : Env) : HashStore St where
  updateHashInDB := updateHashInDB env
  updateTimeInDB := updateTimeInDB env env.configSetTime
  storedHash st := st.dev.rfcStore rfcConfigSetHash
  bkupHash st := st.proc.bkupHash
  isRebootRequired st := st.proc.isRebootRequired
  storedHash_time := updateTimeInDB_hash env env.configSetTime
  isRebootRequired_time _ := rfl
  isRebootRequired_hash _ _ := rfl

def filesStore (opens : Str → Bool) (now : Str) : HashStore Rdkb.HashFiles where
  updateHashInDB := Rdkb.updateHashInDB opens
  updateTimeInDB := Rdkb.updateTimeInDB opens now
  storedHash st := st.hashValue
  bkupHash st := st.bkupHash
  isRebootRequired st := st.isRebootRequired
  storedHash_time _ := rfl
  isRebootRequired_time _ := rfl
  isRebootRequired_hash _ _ := rfl

namespace HashStore

variable {σ : Type} (store : HashStore σ)

/-- The update of a header that names the hash `text`, or none: `updateHashInDB` once, or not at all. -/
def Updates (st after : σ) : Option Str → Prop
  | some text =>
      after = store.updateTimeInDB (store.updateHashInDB text st) ∧
      store.isRebootRequired after =
        if stringCaseCompare (store.bkupHash st) text then false else store.isRebootRequired st
  | none =>
      after = store.updateTimeInDB st ∧ store.storedHash after = store.storedHash st ∧
      store.isRebootRequired after = store.isRebootRequired st

theorem updates (st : σ) (hash : Option Str) :
    store.Updates st
      (store.updateTimeInDB (match hash with
        | some text => store.updateHashInDB text st
        | none => st)) hash := by
  cases hash with
  | some text =>
      refine ⟨rfl, ?_⟩
      rw [store.isRebootRequired_time, store.isRebootRequired_hash]
  | none => exact ⟨rfl, store.storedHash_time st, store.isRebootRequired_time st⟩

end HashStore

/-- **The hash of a header**: the rest of its line, trimmed, is what `updateHashInDB` gets; a header that
does not name the hash leaves the stored one alone. -/
theorem updateHashAndTimeInDB_takes (env : Env) (st : St) (opens : Str → Bool) (now : Str)
    (files : Rdkb.HashFiles) (header : Str) :
    (∀ rest ending, NamesOnce header rest → UniformlyEnded header ending →
      ∃ text, Trims (lineOf rest) text ∧
        (deviceStore env).Updates st (updateHashAndTimeInDB env header st) (some text) ∧
        (filesStore opens now).Updates files
          (Rdkb.updateHashAndTimeInDB opens now header files) (some text)) ∧
    ((∀ key ∈ hashKeys, ¬ key <:+: header) →
      (deviceStore env).Updates st (updateHashAndTimeInDB env header st) none ∧
        (filesStore opens now).Updates files
          (Rdkb.updateHashAndTimeInDB opens now header files) none) := by
  have hdevice : (deviceStore env).Updates st (updateHashAndTimeInDB env header st)
      (configSetHashValue header) := (deviceStore env).updates st _
  have hfiles : (filesStore opens now).Updates files
      (Rdkb.updateHashAndTimeInDB opens now header files) (configSetHashValue header) :=
    (filesStore opens now).updates files _
  constructor
  · intro rest ending hnamed hended
    obtain ⟨text, htrims, hvalue⟩ := hnamed.configSetHashValue hended
    rw [hvalue] at hdevice hfiles
    exact ⟨text, htrims, hdevice, hfiles⟩
  · intro hunnamed
    rw [configSetHashValue_eq_none hunnamed] at hdevice hfiles
    exact ⟨hdevice, hfiles⟩

/-- A header with the name on its second line. -/
def hashedHeader : Str := "200\r\nconfigSetHash: \tH1 \r\n".toList

theorem namesOnce_hashedHeader : NamesOnce hashedHeader " \tH1 \r\n".toList := by
  have hpositions : ∀ n ≤ hashedHeader.length, ∀ key ∈ hashKeys, key <+: hashedHeader.drop n →
      n = 5 ∧ key = "configSetHash:".toList := by decide +kernel
  refine ⟨"200\r\n".toList, "configSetHash:".toList, by simp [hashKeys], rfl, ?_⟩
  intro front rest key hkey hheader
  have hfront : hashedHeader.take front.length = front := by
    rw [hheader, List.append_assoc, List.take_left]
  have hdrop : hashedHeader.drop front.length = key ++ rest := by
    rw [hheader, List.append_assoc, List.drop_left]
  have hle : front.length ≤ hashedHeader.length := by
    rw [hheader]
    simp only [List.length_append]
    omega
  obtain ⟨hlength, rfl⟩ := hpositions _ hle key hkey ⟨rest, hdrop.symm⟩
  rw [hlength] at hfront hdrop
  have hknown : hashedHeader.drop 5 = "configSetHash:".toList ++ " \tH1 \r\n".toList := rfl
  exact ⟨hfront.symm, rfl, List.append_cancel_left (hdrop.symm.trans hknown)⟩

theorem uniformlyEnded_hashedHeader : UniformlyEnded hashedHeader .crlf := by
  have hpositions : ∀ n < hashedHeader.length, (hashedHeader.drop n).head? = some '\n' →
      (hashedHeader.take n).getLast? = some '\r' := by decide +kernel
  intro front back hheader
  have hfront : hashedHeader.take front.length = front := by rw [hheader, List.take_left]
  have hdrop : hashedHeader.drop front.length = '\n' :: back := by rw [hheader, List.drop_left]
  have hlt : front.length < hashedHeader.length := by
    rw [hheader]
    simp only [List.length_append, List.length_cons]
    omega
  rw [← hfront]
  exact hpositions _ hlt (by rw [hdrop]; rfl)

theorem updateHashAndTimeInDB_takes_hashed :
    (deviceStore .plain).Updates .hashed (updateHashAndTimeInDB .plain hashedHeader .hashed)
      (some "H1".toList) ∧
    (deviceStore .plain).Updates .hashed (updateHashAndTimeInDB .plain "200\r\n".toList .hashed)
      none := by
  have h := updateHashAndTimeInDB_takes .plain .hashed (fun _ => true) [] ⟨[], true, none, none⟩
  obtain ⟨text, htrims, hupdates, -⟩ :=
    (h hashedHeader).1 _ .crlf namesOnce_hashedHeader uniformlyEnded_hashedHeader
  obtain rfl : text = "H1".toList := htrims.eq
  exact ⟨hupdates, ((h "200\r\n".toList).2 (by decide +kernel)).1⟩

end TheUpdate

end RfcMgr
