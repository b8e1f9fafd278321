import DomProtocol.Escrow.Custody

/-!
# `Escrow.SmallCluster` — a cluster that keeps the laws

Addresses that show what they were derived from, a system program and a token program without delegates.  It is small
enough to run, so the runs of the program in the next modules are run on it.
-/

namespace DomProtocol.Escrow

open Lib

variable {owner : Pubkey} {data seed' : List UInt8} {decimals : UInt8} {value : Digest32}

namespace SmallCluster

/-- The number of an address: a prefix for its seed, in front of the value. -/
def derive (seed : List UInt8) (value : Nat) : Nat :=
  if seed = stateSeed ∧ value / 2 ^ 252 = 0 then 1 * 2 ^ 252 + value % 2 ^ 252
  else if seed = nativeVaultSeed ∧ value / 2 ^ 252 = 1 then 2 * 2 ^ 252 + value % 2 ^ 252
  else if seed = tokenVaultSeed ∧ value / 2 ^ 252 = 1 then 3 * 2 ^ 252 + value % 2 ^ 252
  else if seed = vaultAuthoritySeed ∧ value / 2 ^ 252 = 1 then 4 * 2 ^ 252 + value % 2 ^ 252
  else 15 * 2 ^ 252

def findProgramAddress (seeds : List (List UInt8)) : Pubkey × UInt8 :=
  (BitVec.ofNat 256 (derive (seeds.getD 0 []) (ofBeBytes (seeds.getD 1 []))), 255)

def packToken (token : TokenAccount) : List UInt8 :=
  1 :: (hashBytes token.mint ++ (hashBytes token.owner ++ beBytes 8 token.amount.toNat))

def unpackToken : List UInt8 → Option TokenAccount
  | 1 :: data => some ⟨BitVec.ofNat 256 (ofBeBytes (data.take 32)), BitVec.ofNat 256 (ofBeBytes ((data.drop 32).take 32)),
      UInt64.ofNat (ofBeBytes (data.drop 64)), none, none, false, false⟩
  | _ => none

def unpackMint : List UInt8 → Option Mint
  | 2 :: decimals :: _ => some ⟨decimals, true⟩
  | _ => none

def tokenIn (ledger : Ledger) (key : Pubkey) : Option TokenAccount :=
  if (ledger key).owner = splToken then unpackToken (ledger key).data else none

def mintIn (ledger : Ledger) (key : Pubkey) : Option Mint :=
  if (ledger key).owner = splToken then unpackMint (ledger key).data else none

abbrev Attempt := Except Unit

def attemptTransfer (ledger : Ledger) (source destination : Pubkey) (amount : UInt64) : Attempt Ledger := do
  rejectIf ((ledger source).owner ≠ systemProgram) ()
  let left ← okOr (checkedSub (ledger source).lamports amount) ()
  if source = destination then return ledger
  else do
    let right ← okOr (checkedAdd (ledger destination).lamports amount) ()
    return (ledger.setLamports source left).setLamports destination right

def attemptCreate (ledger : Ledger) (payer account : Pubkey) (lamports : UInt64) (space : Nat) (owner : Pubkey) :
    Attempt Ledger := do
  rejectIf ((ledger payer).owner ≠ systemProgram ∨ (ledger account).owner ≠ systemProgram ∨ payer = account ∨
    (ledger account).lamports ≠ 0) ()
  let left ← okOr (checkedSub (ledger payer).lamports lamports) ()
  return (ledger.setLamports payer left).set account ⟨lamports, List.replicate space 0, owner, false⟩

def attemptInitialize (ledger : Ledger) (account mint owner : Pubkey) : Attempt Ledger := do
  rejectIf ((ledger account).owner ≠ splToken ∨ unpackToken (ledger account).data ≠ none ∨ mintIn ledger mint = none) ()
  return ledger.setData account (packToken ⟨mint, owner, 0, none, none, false, false⟩)

def attemptTokens (ledger : Ledger) (source mint destination authority : Pubkey) (amount : UInt64) (decimals : UInt8) :
    Attempt Ledger := do
  let held ← okOr (tokenIn ledger source) ()
  let target ← okOr (tokenIn ledger destination) ()
  let found ← okOr (mintIn ledger mint) ()
  rejectIf (held.mint ≠ mint ∨ target.mint ≠ mint ∨ held.owner ≠ authority ∨ found.decimals ≠ decimals) ()
  let left ← okOr (checkedSub held.amount amount) ()
  if source = destination then return ledger
  else do
    let right ← okOr (checkedAdd target.amount amount) ()
    return (ledger.setData source (packToken { held with amount := left })).setData destination
      (packToken { target with amount := right })

def attemptClose (ledger : Ledger) (account destination authority : Pubkey) : Attempt Ledger := do
  let held ← okOr (tokenIn ledger account) ()
  rejectIf (held.owner ≠ authority ∨ held.amount ≠ 0 ∨ account = destination) ()
  let right ← okOr (checkedAdd (ledger destination).lamports (ledger account).lamports) ()
  return (ledger.set account ⟨0, [], systemProgram, false⟩).setLamports destination right

def point (scalar : Nat) : Digest32 := BitVec.ofNat 256 (scalar + 1)

end SmallCluster

def smallCluster : Cluster where
  findProgramAddress := SmallCluster.findProgramAddress
  minimumBalance _ := 10
  systemTransfer ledger source destination amount :=
    (SmallCluster.attemptTransfer ledger source destination amount).toOption
  createAccount ledger payer account lamports space owner :=
    (SmallCluster.attemptCreate ledger payer account lamports space owner).toOption
  unpackToken := SmallCluster.unpackToken
  unpackMint := SmallCluster.unpackMint
  initializeAccount3 ledger account mint owner := (SmallCluster.attemptInitialize ledger account mint owner).toOption
  transferChecked ledger source mint destination authority amount decimals :=
    (SmallCluster.attemptTokens ledger source mint destination authority amount decimals).toOption
  closeAccount ledger account destination authority :=
    (SmallCluster.attemptClose ledger account destination authority).toOption
  multiplyEdwards scalar _ := some (SmallCluster.point (ofLeBytes scalar))

namespace SmallCluster

variable {token : TokenAccount}

theorem unpackToken_packToken (hdlg : token.delegate = none) (hcls : token.closeAuthority = none)
    (hfroz : token.frozen = false) (hnat : token.isNative = false) :
    unpackToken (packToken token) = some token := by
  obtain ⟨mint, owner, amount, delegate, closeAuthority, frozen, isNative⟩ := token
  cases hdlg
  cases hcls
  cases hfroz
  cases hnat
  have hlen (v : Digest32) : (hashBytes v).length = 32 := length_beBytes 32 v.toNat
  have hvalue (v : Digest32) : BitVec.ofNat 256 (ofBeBytes (hashBytes v)) = v := by
    rw [ofBeBytes_hashBytes, BitVec.ofNat_toNat, BitVec.setWidth_eq]
  have hamt : UInt64.ofNat (ofBeBytes (beBytes 8 amount.toNat)) = amount := by
    rw [ofBeBytes_beBytes amount.toNat_lt, UInt64.ofNat_toNat]
  have hfst (v : Digest32) (bytes : List UInt8) : (hashBytes v ++ bytes).take 32 = hashBytes v := List.take_left' (hlen v)
  have hrest (v : Digest32) (bytes : List UInt8) : (hashBytes v ++ bytes).drop 32 = bytes := List.drop_left' (hlen v)
  have hspl : (hashBytes mint ++ (hashBytes owner ++ beBytes 8 amount.toNat)).drop 64 = beBytes 8 amount.toNat := by
    rw [show 64 = 32 + 32 from rfl, ← List.drop_drop, hrest, hrest]
  simp only [packToken, unpackToken, hfst, hrest, hspl, hvalue, hamt]

/-! ## The system program -/

variable {ledger ledger' : Ledger}

variable {a b : Pubkey} {amount : UInt64}

theorem lamportsMoved (h : attemptTransfer ledger a b amount = .ok ledger') :
    LamportsMoved a b amount ledger ledger' := by
  simp only [attemptTransfer, inversion, Decidable.not_not, checkedSub_eq_some] at h
  obtain ⟨hown, left, hleft, h⟩ := h
  split at h
  · rename_i heq
    cases h
    refine ⟨hown, fun _ => ⟨rfl, rfl⟩, fun key => ?_⟩
    rw [heq]
  · rename_i hne
    simp only [inversion, checkedAdd_eq_some] at h
    obtain ⟨right, hrt, rfl⟩ := h
    refine ⟨hown, fun key => ?_, fun key => ?_⟩
    · rw [setLamports_apply, setLamports_apply]
      exact ⟨rfl, rfl⟩
    · simp only [setLamports_apply]
      by_cases hkb : key = b
      · have hka : key ≠ a := fun heq => hne (heq.symm.trans hkb)
        rw [if_pos hkb, if_neg hka, if_pos hkb, hkb]
        omega
      · by_cases hka : key = a
        · rw [if_neg hkb, if_pos hka, if_pos hka, if_neg hkb, hka]
          omega
        · rw [if_neg hkb, if_neg hka, if_neg hka, if_neg hkb]

variable {account : Pubkey}

theorem accountCreated {payer : Pubkey} {lamports : UInt64} {space : Nat}
    (h : attemptCreate ledger payer account lamports space owner = .ok ledger') :
    AccountCreated payer account lamports space owner ledger ledger' := by
  simp only [attemptCreate, inversion, not_or, Decidable.not_not] at h
  obtain ⟨⟨hpayer, haccount, hne, -⟩, left, -, rfl⟩ := h
  refine ⟨hpayer, haccount, ?_, fun _ => ?_, fun key hkp hka => ?_⟩
  · simp [Ledger.set]
  · simp only [Ledger.set, if_neg hne, Ledger.setLamports]
    exact ⟨by simp, by simp⟩
  · simp [Ledger.set, Ledger.setLamports, hkp, hka]

/-! ## The token program -/

variable {key : Pubkey}

theorem tokenAt_eq : tokenAt smallCluster ledger key = tokenIn ledger key := rfl

theorem plain_of_unpack (h : unpackToken data = some token) :
    token.delegate = none ∧ token.closeAuthority = none ∧ token.frozen = false ∧ token.isNative = false := by
  unfold unpackToken at h
  split at h
  · cases h
    exact ⟨rfl, rfl, rfl, rfl⟩
  · cases h

theorem tokenIn_setData {other : Pubkey} (h : tokenIn ledger key = some token) :
    tokenIn (ledger.setData key (packToken { token with amount := amount })) other =
      if other = key then some { token with amount := amount } else tokenIn ledger other := by
  obtain ⟨hown, hunpack⟩ := owner_of_tokenAt (C := smallCluster) h
  obtain ⟨hdlg, hcls, hfroz, hnat⟩ := plain_of_unpack hunpack
  by_cases hoth : other = key
  · rw [if_pos hoth, hoth, tokenIn, setData_apply, if_pos rfl, if_pos hown]
    exact unpackToken_packToken hdlg hcls hfroz hnat
  · rw [if_neg hoth, tokenIn, setData_apply, if_neg hoth]
    rfl

variable {mint : Pubkey}

theorem accountInitialized (h : attemptInitialize ledger account mint owner = .ok ledger') :
    AccountInitialized smallCluster account mint owner ledger ledger' := by
  simp only [attemptInitialize, inversion, not_or, Decidable.not_not] at h
  obtain ⟨⟨hown, hemp, -⟩, rfl⟩ := h
  refine ⟨⟨hown, hemp⟩, ⟨⟨mint, owner, 0, none, none, false, false⟩, ?_, rfl, rfl, rfl, rfl⟩, fun key hkey => ?_⟩
  · rw [tokenAt_eq, tokenIn, setData_apply, if_pos rfl, if_pos hown]
    exact unpackToken_packToken rfl rfl rfl rfl
  · rw [setData_apply, if_neg hkey]

variable {authority : Pubkey}

theorem tokensMoved (h : attemptTokens ledger a mint b authority amount decimals = .ok ledger') :
    TokensMoved smallCluster a mint b authority amount ledger ledger' := by
  simp only [attemptTokens, inversion, not_or, Decidable.not_not, checkedSub_eq_some] at h
  obtain ⟨held, hheld, target, htgt, found, -, ⟨hhlm, htgtm, hown, -⟩, left, hleft, h⟩ := h
  have hsnr : ∃ token, tokenAt smallCluster ledger a = some token ∧ token.mint = mint ∧
      (token.owner = authority ∨ token.delegate = some authority) := ⟨held, hheld, hhlm, .inl hown⟩
  have hrcvr : ∃ token, tokenAt smallCluster ledger b = some token ∧ token.mint = mint := ⟨target, htgt, htgtm⟩
  split at h
  · rename_i heq
    cases h
    refine ⟨hsnr, hrcvr, fun _ _ => rfl, fun key token htok => ⟨token, htok, .refl token, ?_⟩⟩
    rw [heq]
  · rename_i hne
    simp only [inversion, checkedAdd_eq_some] at h
    obtain ⟨right, hrt, rfl⟩ := h
    have htgt' : tokenIn (ledger.setData a (packToken { held with amount := left })) b = some target := by
      rw [tokenIn_setData hheld, if_neg (Ne.symm hne)]
      exact htgt
    refine ⟨hsnr, hrcvr, fun key hkey => ?_, fun key token htok => ?_⟩
    · have hka : key ≠ a := by
        rintro rfl
        cases hkey.symm.trans hheld
      have hkb : key ≠ b := by
        rintro rfl
        cases hkey.symm.trans htgt
      rw [setData_apply, if_neg hkb, setData_apply, if_neg hka]
    · simp only [tokenAt_eq, tokenIn_setData htgt', tokenIn_setData hheld]
      by_cases hkb : key = b
      · have hka : key ≠ a := fun heq => hne (heq.symm.trans hkb)
        obtain rfl : token = target := Option.some.inj (htok.symm.trans (hkb ▸ htgt))
        refine ⟨_, if_pos hkb, ⟨rfl, rfl, id, id⟩, ?_⟩
        rw [if_neg hka, if_pos hkb]
        exact hrt
      · by_cases hka : key = a
        · obtain rfl : token = held := Option.some.inj (htok.symm.trans (hka ▸ hheld))
          refine ⟨{ token with amount := left }, ?_, ⟨rfl, rfl, id, id⟩, ?_⟩
          · rw [if_neg hkb, if_pos hka]
          · rw [if_pos hka, if_neg hkb]
            exact hleft.symm
        · refine ⟨token, ?_, .refl token, ?_⟩
          · rw [if_neg hkb, if_neg hka]
            exact htok
          · rw [if_neg hka, if_neg hkb]

theorem accountClosed (h : attemptClose ledger account b authority = .ok ledger') :
    AccountClosed smallCluster account b authority ledger ledger' := by
  simp only [attemptClose, inversion, not_or, Decidable.not_not, checkedAdd_eq_some] at h
  obtain ⟨held, hheld, ⟨hown, -, hne⟩, right, hrt, rfl⟩ := h
  refine ⟨⟨held, hheld, .inl hown⟩, fun key hkey => ?_⟩
  simp only [setLamports_apply, Ledger.set, if_neg hkey]
  refine ⟨⟨rfl, rfl⟩, UInt64.le_iff_toNat_le.mpr ?_⟩
  by_cases hkb : key = b
  · rw [if_pos hkb, hkb]
    omega
  · rw [if_neg hkb]

theorem exists_transfer (h : Transferable smallCluster a mint b authority amount decimals ledger) :
    ∃ ledger', attemptTokens ledger a mint b authority amount decimals = .ok ledger' := by
  obtain ⟨held, hheld, hhlm, hown, -, hamt, -⟩ := h.sender
  obtain ⟨target, htgt, htgtm, -, hroom, -⟩ := h.receiver
  obtain ⟨found, hfnd, hdecm⟩ := h.minted
  have hleft : checkedSub held.amount amount = some (held.amount - amount) := if_pos hamt
  have hrt : checkedAdd target.amount amount = some (target.amount + amount) := if_pos hroom
  have hheld' : tokenIn ledger a = some held := hheld
  have htgt' : tokenIn ledger b = some target := htgt
  have hfnd' : mintIn ledger mint = some found := hfnd
  simp only [attemptTokens, inversion, not_or, Decidable.not_not]
  by_cases hab : a = b
  · exact ⟨ledger, held, hheld', target, htgt', found, hfnd', ⟨hhlm, htgtm, hown, hdecm⟩, _, hleft,
      by rw [if_pos hab]; rfl⟩
  · refine ⟨(ledger.setData a (packToken { held with amount := held.amount - amount })).setData b
      (packToken { target with amount := target.amount + amount }), held, hheld', target, htgt', found, hfnd',
      ⟨hhlm, htgtm, hown, hdecm⟩, _, hleft, ?_⟩
    rw [if_neg hab, hrt]
    rfl

theorem unpackToken_of_unpackMint {mint : Mint} (h : unpackMint data = some mint) :
    unpackToken data = none := by
  unfold unpackMint at h
  split at h
  · rfl
  · cases h

/-- **The laws hold.** -/
theorem lawful : Lawful smallCluster point where
  rent _ := (by decide : (0 : UInt64) < 10)
  systemTransfer _ _ _ _ _ h := lamportsMoved (toOption_eq_some.mp h)
  createAccount _ _ _ _ _ _ _ h := accountCreated (toOption_eq_some.mp h)
  initializeAccount3 _ _ _ _ _ h := accountInitialized (toOption_eq_some.mp h)
  transferChecked _ _ _ _ _ _ _ _ h := tokensMoved (toOption_eq_some.mp h)
  transferable _ _ _ _ _ _ _ h := by
    obtain ⟨ledger', h'⟩ := exists_transfer h
    exact ⟨ledger', toOption_eq_some.mpr h'⟩
  closeAccount _ _ _ _ _ h := accountClosed (toOption_eq_some.mp h)
  mints _ _ h := unpackToken_of_unpackMint h
  curve scalar h := by
    have hbd : scalar < 256 ^ 32 := by
      have hpow : (2 : Nat) ^ 252 < 256 ^ 32 := by decide
      omega
    show some (point (ofLeBytes (leBytes 32 scalar))) = some (point scalar)
    rw [ofLeBytes_leBytes hbd]

/-! ## Addresses -/

theorem derive_lt (seed : List UInt8) (value : Nat) : derive seed value < 2 ^ 256 := by
  unfold derive
  have hlow : value % 2 ^ 252 < 2 ^ 252 := Nat.mod_lt _ (by decide)
  split_ifs <;> omega

theorem toNat_address (seeds : List (List UInt8)) : (smallCluster.findProgramAddress seeds).1.toNat =
    derive (seeds.getD 0 []) (ofBeBytes (seeds.getD 1 [])) := by
  show (BitVec.ofNat 256 _).toNat = _
  rw [BitVec.toNat_ofNat, Nat.mod_eq_of_lt (derive_lt _ _)]

variable {seed : List UInt8}

theorem findProgramAddress_inj {value' : Digest32}
    (h : (smallCluster.findProgramAddress [seed, hashBytes value]).1 =
      (smallCluster.findProgramAddress [seed', hashBytes value']).1) :
    derive seed value.toNat = derive seed' value'.toNat := by
  have hnat := congrArg BitVec.toNat h
  simpa only [toNat_address, List.getD_cons_zero, List.getD_cons_succ, ofBeBytes_hashBytes] using hnat

theorem derive_inj {value value' : Nat} (h : derive seed' value' = derive seed value)
    (hreal : derive seed value < 15 * 2 ^ 252) : seed' = seed ∧ value' = value := by
  unfold derive at h hreal
  have hlow : value % 2 ^ 252 < 2 ^ 252 := Nat.mod_lt _ (by decide)
  have hlow' : value' % 2 ^ 252 < 2 ^ 252 := Nat.mod_lt _ (by decide)
  split_ifs at h hreal with h₁ h₂ h₃ h₄ h₅ h₆ h₇ h₈ <;>
    first
    | exact absurd h (by omega)
    | exact absurd hreal (by omega)
    | exact ⟨by simp only [*], by omega⟩

theorem unique (h : derive seed value.toNat < 15 * 2 ^ 252) :
    Unique smallCluster seed value := by
  intro seed' _ value' heq
  obtain ⟨hseed, hvalue⟩ := derive_inj (findProgramAddress_inj heq) h
  exact ⟨hseed, BitVec.eq_of_toNat_eq hvalue⟩

/-- **The addresses of an escrow with a small id are its own.** -/
theorem unshared {settlementId : Digest32} (h : settlementId.toNat < 2 ^ 252) :
    Unshared smallCluster (stateAddress smallCluster settlementId).1 := by
  have hstate : derive stateSeed settlementId.toNat = 2 ^ 252 + settlementId.toNat := by
    rw [derive, if_pos ⟨rfl, Nat.div_eq_of_lt h⟩, Nat.mod_eq_of_lt h, Nat.one_mul]
  have hkey : (stateAddress smallCluster settlementId).1.toNat = 2 ^ 252 + settlementId.toNat := by
    rw [stateAddress, toNat_address, List.getD_cons_zero, List.getD_cons_succ, List.getD_cons_zero,
      ofBeBytes_hashBytes, hstate]
  have hhigh : (stateAddress smallCluster settlementId).1.toNat / 2 ^ 252 = 1 := by
    rw [hkey]
    omega
  refine ⟨fun other heq => unique ?_, unique ?_, unique ?_, unique ?_⟩
  · rw [← findProgramAddress_inj heq, hstate]
    omega
  · rw [derive, if_neg (fun hseed => stateSeed_ne_nativeVaultSeed hseed.1.symm), if_pos ⟨rfl, hhigh⟩]
    omega
  · rw [derive, if_neg (fun hseed => stateSeed_ne_tokenVaultSeed hseed.1.symm),
      if_neg (fun hseed => nativeVaultSeed_ne_tokenVaultSeed hseed.1.symm), if_pos ⟨rfl, hhigh⟩]
    omega
  · have hses : vaultAuthoritySeed ≠ stateSeed ∧ vaultAuthoritySeed ≠ nativeVaultSeed ∧
        vaultAuthoritySeed ≠ tokenVaultSeed := by decide +kernel
    rw [derive, if_neg (fun hseed => hses.1 hseed.1), if_neg (fun hseed => hses.2.1 hseed.1),
      if_neg (fun hseed => hses.2.2 hseed.1), if_pos ⟨rfl, hhigh⟩]
    omega

theorem not_isDerived (h : key.toNat < 2 ^ 252) : ¬ IsDerived smallCluster key := by
  rintro ⟨seeds, rfl⟩
  rw [toNat_address] at h
  unfold derive at h
  split_ifs at h <;> omega

end SmallCluster

end DomProtocol.Escrow
