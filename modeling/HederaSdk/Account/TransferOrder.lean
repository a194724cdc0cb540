import HederaSdk.Account.CryptoTransfer
import HederaSdk.AccountOrder

/-!
# The order of transfers

Fungible transfers are sorted by token and account, NFT transfers by sender, receiver and
serial number, hbar transfers by account. Where the accounts that are compared are of one
kind, what the sorted transfers look like does not depend on the order they came in, provided
that transfers at one place look alike.
-/

namespace HederaSdk

theorem forall₂_of_map_eq {α β γ : Type*} {f : α → γ} {g : β → γ} {first : List α} {second : List β}
    (same : first.map f = second.map g) : List.Forall₂ (fun a b => f a = g b) first second := by
  rw [← List.forall₂_map_right_iff, ← List.forall₂_map_left_iff, List.forall₂_eq_eq_eq]
  exact same

namespace TokenTransfer

/-- The place of a transfer among the sorted ones. -/
def sortKey (transfer : TokenTransfer) : (ℤ ×ₗ ℤ ×ₗ ℤ) ×ₗ (ℤ ×ₗ ℤ ×ₗ String ×ₗ ℤ) :=
  toLex (transfer.tokenId.key, transfer.accountId.place)

theorem compare_of_lt {a b : TokenTransfer}
    (comparable : a.tokenId.key = b.tokenId.key → a.accountId.Comparable b.accountId)
    (less : a.sortKey < b.sortKey) : a.compare b < 0 ∧ 0 < b.compare a := by
  rcases Prod.Lex.toLex_lt_toLex.mp less with tokens | ⟨tokens, accounts⟩
  · exact rightAbout a b tokens
  · have same : a.tokenId.compare b.tokenId = 0 := TokenId.compare_eq_zero_iff_key.mpr tokens
    have same' : b.tokenId.compare a.tokenId = 0 := TokenId.compare_eq_zero_iff_key.mpr tokens.symm
    rw [compare, compare, if_neg (not_not.mpr same), if_neg (not_not.mpr same')]
    exact AccountId.compare_of_lt (comparable tokens) accounts

/-- Accounts of one token are of one kind. -/
def Comparable (transfers : List TokenTransfer) : Prop :=
  ∀ a ∈ transfers, ∀ b ∈ transfers, a.tokenId.key = b.tokenId.key → a.accountId.Comparable b.accountId

theorem map_sort_eq {β : Type*} {look : TokenTransfer → β} {transfers others : List TokenTransfer}
    (comparable : Comparable transfers) (comparable' : Comparable others)
    (same : (transfers.map fun a => (a.sortKey, look a)).Perm (others.map fun a => (a.sortKey, look a)))
    (told : ∀ a ∈ transfers, ∀ b ∈ transfers, a.sortKey = b.sortKey → look a = look b) :
    (Js.sort compare transfers).map look = (Js.sort compare others).map look :=
  Js.map_sort_eq (fun a member b member' => compare_of_lt (comparable a member b member'))
    (fun a member b member' => compare_of_lt (comparable' a member b member')) same told

end TokenTransfer

namespace TokenNftTransfer

def sortKey (nft : TokenNftTransfer) :
    (ℤ ×ₗ ℤ ×ₗ String ×ₗ ℤ) ×ₗ (ℤ ×ₗ ℤ ×ₗ String ×ₗ ℤ) ×ₗ ℤ :=
  toLex (nft.senderAccountId.place, toLex (nft.receiverAccountId.place, nft.serialNumber))

/-- Senders are of one kind, and so are receivers of one sender. -/
structure Comparable (a b : TokenNftTransfer) : Prop where
  senders : a.senderAccountId.Comparable b.senderAccountId
  receivers : a.senderAccountId.compare b.senderAccountId = 0 →
    a.receiverAccountId.Comparable b.receiverAccountId

theorem compare_of_lt {a b : TokenNftTransfer} (comparable : Comparable a b)
    (less : a.sortKey < b.sortKey) : a.compare b < 0 ∧ 0 < b.compare a := by
  rcases Prod.Lex.toLex_lt_toLex.mp less with senders | ⟨senders, rest⟩
  · have order := AccountId.compare_of_lt comparable.senders senders
    rw [compare, compare, if_pos order.1.ne, if_pos order.2.ne']
    exact order
  · have same := AccountId.compare_eq_zero_of_place comparable.senders senders
    have same' := AccountId.compare_eq_zero_of_place comparable.senders.symm senders.symm
    have receivers := comparable.receivers same
    rw [compare, compare, if_neg (not_not.mpr same), if_neg (not_not.mpr same')]
    rcases Prod.Lex.toLex_lt_toLex.mp rest with places | ⟨places, serials⟩
    · have order := AccountId.compare_of_lt receivers places
      rw [if_pos order.1.ne, if_pos order.2.ne']
      exact order
    · have same := AccountId.compare_eq_zero_of_place receivers places
      have same' := AccountId.compare_eq_zero_of_place receivers.symm places.symm
      rw [if_neg (not_not.mpr same), if_neg (not_not.mpr same')]
      exact compareLong_of_lt serials

theorem map_sort_eq {β : Type*} {look : TokenNftTransfer → β} {nfts others : List TokenNftTransfer}
    (comparable : ∀ a ∈ nfts, ∀ b ∈ nfts, Comparable a b)
    (comparable' : ∀ a ∈ others, ∀ b ∈ others, Comparable a b)
    (same : (nfts.map fun a => (a.sortKey, look a)).Perm (others.map fun a => (a.sortKey, look a)))
    (told : ∀ a ∈ nfts, ∀ b ∈ nfts, a.sortKey = b.sortKey → look a = look b) :
    (Js.sort compare nfts).map look = (Js.sort compare others).map look :=
  Js.map_sort_eq (fun a member b member' => compare_of_lt (comparable a member b member'))
    (fun a member b member' => compare_of_lt (comparable' a member b member')) same told

end TokenNftTransfer

namespace Transfer

theorem map_sort_eq {β : Type*} {look : Transfer → β} {transfers others : List Transfer}
    (comparable : ∀ a ∈ transfers, ∀ b ∈ transfers, a.accountId.Comparable b.accountId)
    (comparable' : ∀ a ∈ others, ∀ b ∈ others, a.accountId.Comparable b.accountId)
    (same : (transfers.map fun a => (a.accountId.place, look a)).Perm
      (others.map fun a => (a.accountId.place, look a)))
    (told : ∀ a ∈ transfers, ∀ b ∈ transfers, a.accountId.place = b.accountId.place → look a = look b) :
    (Js.sort compare transfers).map look = (Js.sort compare others).map look :=
  Js.map_sort_eq (fun a member b member' => AccountId.compare_of_lt (comparable a member b member'))
    (fun a member b member' => AccountId.compare_of_lt (comparable' a member b member')) same told

end Transfer

end HederaSdk
