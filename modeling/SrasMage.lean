import SrasMage.Aesm.TlvRoundTrip
import SrasMage.EcDh.Agreement
import SrasMage.Edger8r.Bridge
import SrasMage.Edger8r.Length
import SrasMage.ElfParser.Segments
import SrasMage.Le.WhiteList
import SrasMage.Loader.MemRegion
import SrasMage.Loader.PostInit
import SrasMage.Mage.Pages
import SrasMage.ProtectedFs.Authenticity
import SrasMage.ProtectedFs.Durability
import SrasMage.ProtectedFs.MasterKey
import SrasMage.ProtectedFs.ParentOrder
import SrasMage.ProtectedFs.Refinement
import SrasMage.Pse.Eviction
import SrasMage.Pse.Replies
import SrasMage.Qe.Quote
import SrasMage.QuoteHelper.Session
import SrasMage.RefLe.Policy
import SrasMage.RefLe.Token
import SrasMage.SignTool.Quotients
import SrasMage.SignTool.Reserved
import SrasMage.Switchless.Refinement
import SrasMage.Switchless.TrustedWorker
import SrasMage.TkeyExchange.Msg3
import SrasMage.Tlibthread.Cond
import SrasMage.Tlibthread.Mutex
import SrasMage.Trts.Exception
import SrasMage.Trts.InitEnclave
import SrasMage.Trts.Nesting
import SrasMage.Trts.Ocalloc
import SrasMage.Urts.Enclave
import SrasMage.Urts.Metadata
import SrasMage.Urts.PoolInvariant
import SrasMage.Vmc.Agreement
import SrasMage.Vmc.Quota
import SrasMage.Vmc.Sqlite
