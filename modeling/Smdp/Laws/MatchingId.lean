import Mathlib.Data.List.TakeWhile
import Mathlib.Data.Set.Card
import Smdp.Laws.Account
import Smdp.Letters.Count

/-!
# Smdp — the MatchingID

The secret that authorises a download. One the server draws itself is as likely as any other:
the mask takes every letter of the alphabet for as many octets (`generateMatchingId_even`). And what
is printed of it, as an activation code, leads a device back to the order, for as long as there is
a database (`activation_leads_back`).
-/

namespace Smdp

open Interaction Letters Rowid

/-! ## Drawing one -/

/-- The letter an octet is drawn for. -/
def letterOf (b : UInt8) : Char := alphabet.get ⟨(b &&& 0x1f).toNat, mask_lt_alphabet b⟩

theorem toList_generateMatchingId (raw : Octets 22) :
    (generateMatchingId raw).toList = raw.val.map letterOf := by
  unfold generateMatchingId
  rw [String.toList_ofList]
  rfl

/-- A power of two, which is why the mask draws each letter as often as any other. -/
theorem alphabet_length : alphabet.length = 32 := by decide

/-- The mask takes the octet modulo 32. -/
theorem toNat_mask (b : UInt8) : (b &&& 0x1f).toNat = b.toNat % 32 := by
  rw [UInt8.toNat_and]
  exact Nat.and_two_pow_sub_one_eq_mod b.toNat 5

/-- No letter comes twice, so an octet is drawn as the letter that stands where its mask points. -/
theorem letterOf_eq_iff {b : UInt8} {j : Nat} (hj : j < alphabet.length) :
    letterOf b = alphabet.get ⟨j, hj⟩ ↔ b.toNat % 32 = j := by
  have hnodup : alphabet.Nodup := by decide
  unfold letterOf
  rw [hnodup.get_inj_iff, Fin.mk.injEq, toNat_mask]

def octet : Fin 256 ↪ UInt8 := ⟨UInt8.ofFin, fun _ _ h => by simpa using congrArg UInt8.toFin h⟩

/-- The octets a letter is drawn for. -/
def octetsOf (c : Char) : Finset UInt8 := (Finset.univ.filter fun k => letterOf (octet k) = c).map octet

theorem mem_octetsOf (b : UInt8) (c : Char) : b ∈ octetsOf c ↔ letterOf b = c := by
  unfold octetsOf
  rw [Finset.mem_map]
  constructor
  · rintro ⟨k, hk, rfl⟩
    exact (Finset.mem_filter.mp hk).2
  · intro h
    exact ⟨b.toFin, Finset.mem_filter.mpr ⟨Finset.mem_univ _, h⟩, rfl⟩

/-- **Every letter of the alphabet is drawn for eight octets**: one for each value of the three bits
the mask drops. -/
theorem card_octetsOf {c : Char} (hc : c ∈ alphabet) : (octetsOf c).card = 8 := by
  obtain ⟨⟨j, hj⟩, rfl⟩ := List.mem_iff_get.mp hc
  have hlt : j < 32 := alphabet_length ▸ hj
  have htoNat : ∀ i < 8, (UInt8.ofNat (j + 32 * i)).toNat = j + 32 * i := by
    intro i hi
    rw [UInt8.toNat_ofNat']
    omega
  have himage : octetsOf (alphabet.get ⟨j, hj⟩)
      = (Finset.range 8).image fun i => UInt8.ofNat (j + 32 * i) := by
    ext b
    rw [mem_octetsOf, letterOf_eq_iff hj, Finset.mem_image]
    constructor
    · intro hb
      have hbound := b.toNat_lt
      refine ⟨b.toNat / 32, Finset.mem_range.mpr (by omega), UInt8.toNat_inj.mp ?_⟩
      rw [htoNat _ (by omega)]
      omega
    · rintro ⟨i, hi, rfl⟩
      rw [htoNat i (Finset.mem_range.mp hi)]
      omega
  rw [himage, Finset.card_image_of_injOn, Finset.card_range]
  intro i hi i' hi' heq
  have hsame : j + 32 * i = j + 32 * i' := by
    rw [← htoNat i (Finset.mem_range.mp hi), ← htoNat i' (Finset.mem_range.mp hi')]
    exact congrArg UInt8.toNat heq
  omega

/-- A word of 22 letters of the alphabet. -/
def Drawable (m : String) : Prop := m.toList.length = 22 ∧ ∀ c ∈ m.toList, c ∈ alphabet

/-- Every MatchingID is drawn from the alphabet, and is as long as any other. -/
theorem drawable_generateMatchingId (raw : Octets 22) : Drawable (generateMatchingId raw) := by
  unfold Drawable
  rw [toList_generateMatchingId]
  refine ⟨by rw [List.length_map, raw.property], ?_⟩
  intro c hc
  obtain ⟨b, _, rfl⟩ := List.mem_map.mp hc
  exact List.get_mem _ _

/-- What a word is drawn for, octet by octet. -/
theorem draws_generateMatchingId {m : String} (hm : Drawable m) :
    Subtype.val '' {raw : Octets 22 | generateMatchingId raw = m}
      = (draws octetsOf m.toList : Set Bytes) := by
  ext as
  show _ ↔ as ∈ draws octetsOf m.toList
  rw [mem_draws mem_octetsOf]
  constructor
  · rintro ⟨raw, rfl, rfl⟩
    exact (toList_generateMatchingId raw).symm
  · intro hword
    have hlen : as.length = 22 := by rw [← hm.1, ← hword, List.length_map]
    refine ⟨⟨as, hlen⟩, ?_, rfl⟩
    apply String.toList_injective
    rw [toList_generateMatchingId]
    exact hword

/-- **No MatchingID is likelier than another.** Every word of 22 letters of the alphabet is drawn
for just as many of the strings of 22 octets that the random source may give, and nothing else is
ever drawn. -/
theorem generateMatchingId_even (m : String) :
    (Drawable m → {raw | generateMatchingId raw = m}.ncard = 8 ^ 22)
      ∧ (¬ Drawable m → ∀ raw, generateMatchingId raw ≠ m) := by
  constructor
  · intro hm
    rw [← Set.ncard_image_of_injective _ Subtype.val_injective, draws_generateMatchingId hm,
      Set.ncard_coe_finset, card_draws fun c hc => card_octetsOf (hm.2 c hc), hm.1]
  · rintro hm raw rfl
    exact hm (drawable_generateMatchingId raw)

/-! ## The activation code -/

/-- What an LPA makes of an activation code (SGP.22 v2.6 section 4.1): the SM-DP+ address and the
MatchingID are fields that end at the next `$`. -/
def readActivationCode (code : String) : Option (String × String) :=
  if "LPA:1$".toList <+: code.toList then
    let rest := code.toList.drop 6
    match rest.dropWhile (· ≠ '$') with
    | [] => none
    | _ :: tail =>
      some (String.ofList (rest.takeWhile (· ≠ '$')), String.ofList (tail.takeWhile (· ≠ '$')))
  else none

theorem toList_activationCode (host matchingId : String) :
    (activationCode host matchingId).toList
      = "LPA:1$".toList ++ (host.toList ++ '$' :: matchingId.toList) := by
  simp [activationCode, toString]

/-- **An activation code reads back exactly if there is no `$` in what it is made of.** -/
theorem readActivationCode_iff (host matchingId : String) :
    readActivationCode (activationCode host matchingId) = some (host, matchingId)
      ↔ '$' ∉ host.toList ∧ '$' ∉ matchingId.toList := by
  have hrest : (activationCode host matchingId).toList.drop 6
      = host.toList ++ '$' :: matchingId.toList := by
    rw [toList_activationCode]
    rfl
  have hpre : "LPA:1$".toList <+: (activationCode host matchingId).toList := by
    rw [toList_activationCode]
    exact List.prefix_append _ _
  unfold readActivationCode
  rw [if_pos hpre]
  dsimp only
  rw [hrest]
  constructor
  · intro h
    split at h
    · cases h
    · obtain ⟨hhost, hid⟩ := Prod.mk.inj (Option.some.inj h)
      -- a field holds nothing but what comes before a `$`
      have hfield : ∀ {s : String} {cs : List Char}, String.ofList (cs.takeWhile (· ≠ '$')) = s →
          '$' ∉ s.toList := by
        rintro s cs rfl hmem
        rw [String.toList_ofList] at hmem
        simpa using List.mem_takeWhile_imp hmem
      exact ⟨hfield hhost, hfield hid⟩
  · rintro ⟨hhost, hid⟩
    have hclean : ∀ {s : String}, '$' ∉ s.toList → ∀ c ∈ s.toList, (decide (c ≠ '$')) = true := by
      intro s hs c hc
      apply decide_eq_true
      rintro rfl
      exact hs hc
    rw [List.dropWhile_append_of_pos (hclean hhost), List.takeWhile_append_of_pos (hclean hhost)]
    have hend : ∀ cs : List Char, ('$' :: cs).takeWhile (· ≠ '$') = [] := fun cs => rfl
    have hdrop : ('$' :: matchingId.toList).dropWhile (· ≠ '$') = '$' :: matchingId.toList := rfl
    rw [hend, hdrop, List.append_nil]
    dsimp only
    rw [List.takeWhile_eq_self_iff.mpr (hclean hid), String.ofList_toList, String.ofList_toList]

/-! ## Back to the order -/

section

variable {σ : Type} {config : ServerConfig} {p : ServerPool σ}
  {h : List (Step (ServerPool σ) (ServerLifeEvent σ))}

theorem dollar_not_mem_generateMatchingId (raw : Octets 22) :
    '$' ∉ (generateMatchingId raw).toList := by
  intro hmem
  have hletter : '$' ∈ alphabet := (drawable_generateMatchingId raw).2 _ hmem
  exact absurd hletter (by decide)

/-- An order that was added is on file as what was asked for. -/
theorem row_of_added {q q' : ServerPool σ} {t : Nat} {c : Command} {env : Env σ} {new : NewOrder}
    {added : Order}
    (step : LifeServing config q (.alive (.called t c env ⟨.store (.addOrder new), .ok added⟩)) q') :
    q'.shared.store.orders.row? added.id = some added.toRow
      ∧ added.toRow = new.toRow added.id := by
  cases step with
  | alive step =>
    obtain ⟨hanswer, hshared⟩ := step.answered
    have hok : (q.shared.store.performUnder env.faults (.addOrder new)).1 = .ok added :=
      hanswer.symm
    have hstore : q'.shared.store = q.shared.store.after env.faults (.addOrder new) :=
      congrArg AppState.store hshared
    have hanswers := answers_of_ok hok
    rw [← hstore] at hanswers
    have hadded : (q.shared.store.addOrder new).1 = .ok added := congrArg Prod.fst hanswers
    have hafter : (q.shared.store.addOrder new).2 = q'.shared.store := congrArg Prod.snd hanswers
    rcases q.shared.store.addOrder_cases new with ⟨_, hout⟩ | ⟨_, o, ho, htoRow, hrows⟩
    · rw [hout] at hadded
      cases hadded
    · obtain rfl : o = added := Except.ok.inj (ho.symm.trans hadded)
      rw [hafter] at hrows
      have hid : o.id = q.shared.store.orders.nextKey := congrArg OrderRow.id htoRow
      refine ⟨Table.row?_eq_some.mpr ⟨?_, rfl⟩, by rw [htoRow, hid]⟩
      rw [hrows]
      exact List.mem_append_right _ List.mem_cons_self

/-- **The activation code of an order leads back to it**, however the server is used and restarted
after `order add` has returned. A device that reads the code has the address and a MatchingID, and
looking that up finds the order, with the Profile it was added for. The operator may choose the
MatchingID, but not one with a `$` in it. -/
theorem activation_leads_back (run : LifeRun config h p) {past after x t args env new added}
    (hh : h = past ++ x :: after)
    (hx : x.label = .alive (.called t (.orderAdd args) env ⟨.store (.addOrder new), .ok added⟩))
    (hchosen : ∀ m, args.matchingId = some m → '$' ∉ m.toList) {host : String}
    (hhost : '$' ∉ host.toList) :
    ∃ m o, readActivationCode (activationCode host added.matchingId) = some (host, m)
      ∧ p.shared.store.orderByMatchingId m = .ok (some o) ∧ o.id = added.id ∧ o.upp = args.upp
      ∧ o.metadata = args.metadata := by
  obtain ⟨_, hargs, hordered⟩ := calls_rest run hh hx
  cases hargs
  rw [hh] at run
  obtain ⟨hbefore, step, hafter⟩ := run.split
  rw [hx] at step
  -- the order is there once it was added, and stays the Profile it is
  obtain ⟨hrow, htoRow⟩ := row_of_added step
  obtain ⟨r, hr, hsame⟩ := lives_sameProfile hafter hrow
  have hid : added.matchingId = new.matchingId := congrArg OrderRow.matchingId htoRow
  have hclean : '$' ∉ added.matchingId.toList := by
    rw [hid]
    rcases hordered.matchingId with hgiven | ⟨_, raw, _, hdrawn⟩
    · exact hchosen _ hgiven
    · rw [hdrawn]
      exact dollar_not_mem_generateMatchingId raw
  obtain ⟨o, rfl⟩ := lives_typed (hbefore.append (.cons step hafter)) added.id r hr
  have hfind : p.shared.store.orders.rows.find? (fun r => r.matchingId = added.matchingId)
      = some o.toRow := (find?_matchingId _).mpr ⟨Table.mem_of_row? hr, hsame.matchingId⟩
  refine ⟨added.matchingId, o, (readActivationCode_iff _ _).mpr ⟨hhost, hclean⟩, ?_, ?_, ?_, ?_⟩
  · exact SqliteStore.one_eq_ok.mpr hfind
  · exact hsame.id
  · exact (hsame.upp.trans (congrArg OrderRow.upp htoRow)).trans hordered.upp
  · exact (hsame.metadata.trans (congrArg OrderRow.metadata htoRow)).trans hordered.metadata

/-- The MatchingID was chosen by the operator, and the process has ended since. -/
theorem activation_leads_back_downloadRestarted :
    ∃ m o, readActivationCode "LPA:1$smdp.example.com$A" = some ("smdp.example.com", m)
      ∧ (restartedPool beforeRestart afterRestart).shared.store.orderByMatchingId m = .ok (some o)
      ∧ o.upp = [7] := by
  obtain ⟨m, o, hread, hfound, _, hupp, _⟩ :=
    activation_leads_back (run_restarted beforeRestart afterRestart)
      (List.take_append_drop 2 downloadRestarted).symm rfl (by simp)
      (show '$' ∉ "smdp.example.com".toList by decide)
  exact ⟨m, o, hread, hfound, hupp⟩

end

end Smdp
