/-
Alias-to-adapter lookup: the only way a request reaches a provider.

An alias is looked up in its normal form. One that is not registered is
refused, and the error shows it only if it is plainly an identifier.
-/
import PrivacyGateway.Errors
import PrivacyGateway.Lib.Effect
import PrivacyGateway.Unicode

namespace PrivacyGateway.Llm

open Effect

/-- The only interface through which a model is reached. -/
structure LLMProvider (σ : Type) where
  providerAlias : Text
  complete : ProtectedChatRequest → Eff σ Exn ProviderResponse

def redactedAlias : Text := "<unloggable>".toList

/-- `^[A-Za-z0-9._:-]{1,64}$`: the end anchor also stands before a final
line break. -/
def isSafeAlias (providerAlias : Text) : Bool :=
  matchesCode providerAlias ||
    (providerAlias.getLast? == some '\n' && matchesCode providerAlias.dropLast)

/-- The alias, only if it is plainly an identifier. -/
def safeAliasForLog (providerAlias : Text) : Text :=
  if isSafeAlias providerAlias then providerAlias else redactedAlias

/-- Immutable alias to adapter map. -/
structure ProviderRegistry (σ : Type) where
  adapters : Dict Text (LLMProvider σ)

/-- The form an alias is registered and looked up in. -/
def normalizeAlias (unicode : Unicode) (providerAlias : Text) : Text :=
  unicode.lower (unicode.strip providerAlias)

/-- The adapter registered under an alias. -/
def ProviderRegistry.get {σ : Type} (registry : ProviderRegistry σ)
    (unicode : Unicode) (providerAlias : Text) : Except Exn (LLMProvider σ) :=
  match registry.adapters.get? (normalizeAlias unicode providerAlias) with
  | some adapter => .ok adapter
  | none =>
      .error (gatewayError .providerNotAllowed
        [("provider_alias", .text (safeAliasForLog providerAlias))])

end PrivacyGateway.Llm
