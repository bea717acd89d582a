import StratTrader.Brokers.Alpaca
import StratTrader.Brokers.Supervisor
import StratTrader.Foundation.Python

/-!
# Adapters and modes

`build_adapter` of `brokers/services.py`, and the two views that decide the mode of an account:
`BrokerListCreateView`, which connects an account, and `BrokerModeView`, which switches it.

## What is proved

* `buildAdapter_alpaca`: an adapter of an account at `ALPACA` is one whose client is bound to the
  endpoint of the account's mode.
* `post_cases`: `BrokerModeView` makes an account live only with the setting and with an attribute of the user.

## Honest scope

Whether keys can be decrypted, the vendor's client, and the TradeStation adapter are parameters. When an
account is connected its keys have been tested, and it is not one that is there: these ways out of the
view change nothing, and are left out. So are audit entries, metrics and default risk profiles.
-/

namespace StratTrader.Brokers

open StratTrader.Foundation

/-! ### `build_adapter` -/

/-- The account's orders go to the live endpoint of Alpaca. -/
def BrokerAccount.TradesLive (account : BrokerAccount) : Prop :=
  account.broker = "ALPACA" ∧ endpointOf account.mode = .live

instance (account : BrokerAccount) : Decidable account.TradesLive := inferInstanceAs (Decidable (_ ∧ _))

/-- What `build_adapter` depends on. -/
structure AdapterEnv where
  /-- What decrypting an account's keys raises, if anything. -/
  keyError : BrokerAccount → Option Exc
  /-- `is_enabled("BROKER_ALPACA_ENABLED")`. -/
  alpacaEnabled : Bool
  /-- `is_enabled("BROKER_TRADESTATION_ENABLED")`. -/
  tradestationEnabled : Bool
  /-- The client with an account's keys, at an endpoint. -/
  alpacaClient : BrokerAccount → Endpoint → Alpaca.Client
  /-- `TradeStationPaperAdapter.place_order`. -/
  tradestation : BrokerAccount → OrderRequest → String → Except Raised OrderAck

/-- A `BrokerError` with a code and a message. -/
def refuse (code message : String) : Raised := .broker (Alpaca.brokerError code message false none)

/-- `build_adapter`: the adapter's `place_order`. -/
def buildAdapter (env : AdapterEnv) (account : BrokerAccount) :
    Except Raised (OrderRequest → String → Except Raised OrderAck) :=
  match env.keyError account with
  | some exc => .error (.other exc)
  | none =>
    if account.broker = "ALPACA" then
      if !env.alpacaEnabled then .error (refuse BrokerErrorCode.disabled "Alpaca is disabled by ops.")
      else .ok (Alpaca.placeOrder (env.alpacaClient account (endpointOf account.mode)))
    else if account.broker = "TRADESTATION" then
      if !env.tradestationEnabled then .error (refuse BrokerErrorCode.disabled "TradeStation is disabled by ops.")
      else if account.mode = .live then
        .error (refuse BrokerErrorCode.liveTradingDisabled
          "TradeStation does not support live trading on this platform; the account is paper-only.")
      else .ok (env.tradestation account)
    else .error (refuse BrokerErrorCode.unavailable ("Unknown broker '" ++ account.broker ++ "'."))

/-- The adapter of an account at Alpaca is bound to the endpoint of its mode, whatever the live gate says. -/
theorem buildAdapter_alpaca {env : AdapterEnv} {account : BrokerAccount} (hbroker : account.broker = "ALPACA")
    {adapter : OrderRequest → String → Except Raised OrderAck} (h : buildAdapter env account = .ok adapter) :
    adapter = Alpaca.placeOrder (env.alpacaClient account (endpointOf account.mode)) := by
  unfold buildAdapter at h
  split at h
  · cases h
  · rw [if_pos hbroker] at h
    split_ifs at h
    exact (Except.ok.inj h).symm

/-! ### Connecting an account -/

/-- `BrokerConnectSerializer`: paper accounts at Alpaca only. -/
def connects (broker : String) (mode : Mode) : Bool := decide (broker = "ALPACA") && decide (mode = .paper)

/-- `BrokerListCreateView.post`: the accounts with the new one; `none` is a response with an error. -/
def connectAccount (accounts : List BrokerAccount) (user : UserId) (broker : String) (mode : Mode)
    (wantsDefault : Bool) (id : AccountId) (now : ℤ) : Option (List BrokerAccount) :=
  if connects broker mode then
    let makeDefault := wantsDefault || !accounts.any fun a => decide (a.user = user)
    let others := accounts.map fun a =>
      if makeDefault ∧ a.user = user ∧ a.isDefault then { a with isDefault := false } else a
    some (others ++ [⟨id, user, broker, mode, makeDefault, .connected, now⟩])
  else none

/-- No account that is connected is live, and no other becomes so. -/
theorem connectAccount_tradesLive {accounts connected : List BrokerAccount} {user : UserId} {broker : String}
    {mode : Mode} {wantsDefault : Bool} {id : AccountId} {now : ℤ}
    (h : connectAccount accounts user broker mode wantsDefault id now = some connected) {account : BrokerAccount}
    (ha : account ∈ connected) (hlive : account.TradesLive) : ∃ b ∈ accounts, b.TradesLive := by
  unfold connectAccount at h
  split_ifs at h with hconnects
  cases h
  simp only [connects, Bool.and_eq_true, decide_eq_true_eq] at hconnects
  rcases List.mem_append.mp ha with ha | ha
  · obtain ⟨b, hb, rfl⟩ := List.mem_map.mp ha
    refine ⟨b, hb, ?_⟩
    split_ifs at hlive
    · exact hlive
    · exact hlive
  · rw [List.mem_singleton.mp ha] at hlive
    have hmode := hlive.2
    rw [hconnects.2] at hmode
    cases hmode

/-! ### Switching the mode -/

/-- A response of `BrokerModeView`. -/
inductive ModeReply where
  /-- 404. -/
  | notFound
  /-- `fail`, with the code, the message and the status. -/
  | fail (code message : String) (status : ℕ)
  /-- `ok`. -/
  | ok (id : AccountId) (mode : Mode)
  deriving DecidableEq

/-- The modes, by their texts. -/
def modeOf (mode : String) : Option Mode :=
  if mode = "PAPER" then some .paper else if mode = "LIVE" then some .live else none

/-- `account.save(update_fields=["mode", "updated_at"])`. -/
def saveMode (accounts : List BrokerAccount) (pk : AccountId) (mode : Mode) : List BrokerAccount :=
  accounts.map fun a => if a.id = pk then { a with mode := mode } else a

/-- `BrokerModeView.post`, of the setting, the requesting user, the user's attribute `live_trading_enabled` if there is
one, and the text of the mode. -/
def BrokerModeView.post (upper : String → String) (setting : Option Bool) (accounts : List BrokerAccount)
    (user : UserId) (liveTradingEnabled : Option Bool) (pk : AccountId) (mode : String) :
    List BrokerAccount × ModeReply :=
  match accounts.find? fun a => decide (a.id = pk) && decide (a.user = user) with
  | none => (accounts, .notFound)
  | some account =>
    match modeOf (strip (upper mode)) with
    | none => (accounts, .fail "VALIDATION_ERROR" "mode must be PAPER or LIVE." 400)
    | some mode =>
      if mode = .live ∧ ¬ (setting.getD false = true ∧ liveTradingEnabled.getD false = true) then
        (accounts, .fail "LIVE_TRADING_DISABLED" "Live trading is not available yet." 403)
      else (saveMode accounts account.id mode, .ok account.id mode)

/-- A request that makes an account live: it asks for it, of an account at Alpaca, and the setting and the user's
attribute are on. -/
def BrokerModeView.MakesLive (upper : String → String) (setting : Option Bool) (accounts : List BrokerAccount)
    (liveTradingEnabled : Option Bool) (pk : AccountId) (mode : String) : Prop :=
  modeOf (strip (upper mode)) = some .live ∧ (setting.getD false = true ∧ liveTradingEnabled.getD false = true) ∧
    ∃ a ∈ accounts, a.id = pk ∧ a.broker = "ALPACA"

/-- **`BrokerModeView` makes an account live only with the setting and the user's attribute.** -/
theorem post_cases (upper : String → String) (setting : Option Bool) (accounts : List BrokerAccount) (user : UserId)
    (liveTradingEnabled : Option Bool) (pk : AccountId) (mode : String) {account : BrokerAccount}
    (ha : account ∈ (BrokerModeView.post upper setting accounts user liveTradingEnabled pk mode).1)
    (hlive : account.TradesLive) :
    (∃ b ∈ accounts, b.TradesLive) ∨
      BrokerModeView.MakesLive upper setting accounts liveTradingEnabled pk mode := by
  unfold BrokerModeView.post at ha
  cases hfind : accounts.find? fun a => decide (a.id = pk) && decide (a.user = user) with
  | none =>
    rw [hfind] at ha
    exact .inl ⟨account, ha, hlive⟩
  | some found =>
    rw [hfind] at ha
    have hpk : found.id = pk := by
      have hboth := List.find?_some hfind
      simp only [Bool.and_eq_true, decide_eq_true_eq] at hboth
      exact hboth.1
    cases hmode : modeOf (strip (upper mode)) with
    | none =>
      rw [hmode] at ha
      exact .inl ⟨account, ha, hlive⟩
    | some asked =>
      rw [hmode] at ha
      dsimp only at ha
      split_ifs at ha with hrefused
      · exact .inl ⟨account, ha, hlive⟩
      · obtain ⟨b, hb, rfl⟩ := List.mem_map.mp ha
        split_ifs at hlive with hid
        · have hasked : asked = .live := by
            have hend := hlive.2
            unfold endpointOf Mode.isPaper at hend
            simpa using hend
          refine .inr ⟨hasked ▸ hmode, not_not.mp fun hnot => hrefused ⟨hasked, hnot⟩, b, hb, hid.trans hpk, ?_⟩
          exact hlive.1
        · exact .inl ⟨b, hb, hlive⟩

end StratTrader.Brokers
